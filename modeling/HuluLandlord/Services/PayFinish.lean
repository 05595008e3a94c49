import HuluLandlord.Define
import HuluLandlord.Table
import HuluLandlord.Transition
import Mathlib.Logic.Function.Basic

/-!
The payment callbacks of the web service, and the agents that process what the callbacks have left for
their users. A callback runs from one call of the database or of a service to the next, and each of these
is an event of its own. A callback without an order number is one whose order does not exist.
-/
namespace HuluLandlord.Services
open Transition Table

abbrev OrderId := Nat

/-- A row of `UserPayOrderPre`, as far as it is read; it is looked up by its number. -/
structure PreOrder where
  uId : UserId
  storeId : Nat
  product_id : Nat
  isHuawei : Bool
  state : Nat
  deriving DecidableEq, Repr

structure PayData where
  out_trade_no : OrderId
  transaction_id : Option Nat
  sandbox : Bool
  purchaseToken : Option Nat
  sign : Nat
  deriving DecidableEq, Repr

structure PayRet where
  ok : Bool
  code : Nat
  message : String
  deriving DecidableEq, Repr

/-- A row of `UserPayOrder` or of `UserPayOrderSandBox`. -/
structure PayOrder where
  sandbox : Bool
  id : OrderId
  transaction_id : Option Nat
  deriving DecidableEq, Repr

/-- A row of `UserPendingData` for a payment. `_id` is the one that the database gives it. -/
structure PendingRow where
  _id : Nat
  uId : UserId
  storeId : Nat
  orderId : OrderId
  transaction_id : Option Nat
  sign : Nat
  deriving DecidableEq, Repr

/-- The call that a callback waits for, with the order it has read, or what it returned; `raised` when it
fails. -/
inductive PayPc
  | getPre
  | confirm (pre_order : PreOrder)
  | addFail (pre_order : PreOrder)
  | getFinish (pre_order : PreOrder)
  | update (pre_order : PreOrder)
  | push (pre_order : PreOrder)
  | getUser (pre_order : PreOrder)
  | addOrder (pre_order : PreOrder)
  | done (ret : PayRet)
  | raised
  deriving DecidableEq, Repr

structure PayCallback where
  data : PayData
  pc : PayPc
  deriving DecidableEq, Repr

/-- Where the processing of a user's pending data is: with the rows that are still to be bought, and
those that will be deleted. -/
inductive PendingPc
  | find (isDelayCheck : Bool)
  | sleep
  | buy (todo delDataArr : List PendingRow)
  | delMany (delDataArr : List PendingRow)
  deriving DecidableEq, Repr

/-- The tables, the callbacks, the processing that holds each user's `PendingQueue`, and what has been
pushed and bought. -/
structure PayState where
  pre : OrderId → Option PreOrder
  orders : List PayOrder
  fails : List PreOrder
  pending : List PendingRow
  callbacks : List PayCallback
  running : UserId → Option PendingPc
  pushed : List PendingRow
  bought : List PendingRow

/-- Events at the calls have what the environment answers: whether the confirmation was given, whether
the row of the user is there, and whether a purchase went through. -/
inductive PayEvent
  | PayOrderGet (orderId : OrderId) (pre_order : PreOrder)
  | PayFinish (data : PayData)
  | resume (i : Nat) (answer : Bool)
  | computePendingDataEvent (uId : UserId) (isDelayCheck : Bool)
  | process (uId : UserId) (answer : Bool)
  | exit (uId : UserId)
  deriving DecidableEq, Repr

/-- The rows that a processing has taken up, and will delete. -/
def PendingPc.del : PendingPc → List PendingRow
  | .find _ | .sleep => []
  | .buy _ delDataArr | .delMany delDataArr => delDataArr

namespace PayCallback

def orderId (c : PayCallback) : OrderId := c.data.out_trade_no

/-- The order is marked as paid unless it was when it was read. -/
def checkState (pre_order : PreOrder) : PayPc :=
  if pre_order.state = 1 then .done ⟨true, 1, "PayOrderPre state success"⟩ else .update pre_order

/-- Without a transaction id nothing is looked up. -/
def toFinish (c : PayCallback) (pre_order : PreOrder) : PayPc :=
  match c.data.transaction_id with
  | none => checkState pre_order
  | some _ => .getFinish pre_order

/-- What follows the first call. -/
def found (c : PayCallback) : Option PreOrder → PayPc
  | none => .done ⟨false, 2, "not exits order"⟩
  | some pre_order =>
      if pre_order.isHuawei ∧ c.data.purchaseToken.isSome then .confirm pre_order
      else c.toFinish pre_order

def finished (c : PayCallback) (r : PayOrder) : Bool :=
  r.sandbox = c.data.sandbox ∧ r.transaction_id = c.data.transaction_id

def row (c : PayCallback) (pre_order : PreOrder) (_id : Nat) : PendingRow :=
  ⟨_id, pre_order.uId, pre_order.storeId, c.orderId, c.data.transaction_id, c.data.sign⟩

end PayCallback

namespace PayState

def goto (s : PayState) (i : Nat) (c : PayCallback) (pc : PayPc) : PayState :=
  { s with callbacks := s.callbacks.set i { c with pc } }

/-- A callback goes on from the call it waits for. The row of the order is updated if it is the one that
was read, and the callback does not ask whether it was. -/
def resume (s : PayState) (i : Nat) (c : PayCallback) (answer : Bool) : Option PayState :=
  match c.pc with
  | .getPre => some (s.goto i c (c.found (s.pre c.orderId)))
  | .confirm pre_order =>
      if answer then some (s.goto i c (c.toFinish pre_order))
      else some (s.goto i c (.addFail pre_order))
  | .addFail pre_order =>
      some ({ s with fails := s.fails ++ [pre_order] }.goto i c (c.toFinish pre_order))
  | .getFinish pre_order =>
      if s.orders.any c.finished then some (s.goto i c (.done ⟨true, 5, "order finish"⟩))
      else some (s.goto i c (PayCallback.checkState pre_order))
  | .update pre_order =>
      let pre := if s.pre c.orderId = some pre_order then
        Function.update s.pre c.orderId (some { pre_order with state := 1 }) else s.pre
      some ({ s with pre }.goto i c (.push pre_order))
  | .push pre_order =>
      let row := c.row pre_order s.pushed.length
      some ({ s with pending := s.pending ++ [row], pushed := s.pushed ++ [row] }.goto i c
        (.getUser pre_order))
  | .getUser pre_order =>
      if answer then some (s.goto i c (.addOrder pre_order)) else some (s.goto i c .raised)
  | .addOrder _ =>
      let order : PayOrder := ⟨c.data.sandbox, c.orderId, c.data.transaction_id⟩
      some ({ s with orders := s.orders ++ [order] }.goto i c (.done ⟨true, 1, "success"⟩))
  | .done _ | .raised => none

/-- A processing goes on. A purchase that fails ends the loop over the rows, and the row it was for is
deleted with those before. -/
def process (s : PayState) (uId : UserId) (answer : Bool) : PendingPc → PayState
  | .find isDelayCheck =>
      let arr := s.pending.filter fun row => row.uId = uId
      let next : Option PendingPc :=
        if arr ≠ [] then some (.buy arr []) else if isDelayCheck then some .sleep else none
      { s with running := Function.update s.running uId next }
  | .sleep => { s with running := Function.update s.running uId (some (.find false)) }
  | .buy [] delDataArr =>
      { s with running := Function.update s.running uId (some (.delMany delDataArr)) }
  | .buy (value :: todo) delDataArr =>
      { s with
        bought := s.bought ++ [value]
        running := Function.update s.running uId
          (some (.buy (if answer then todo else []) (delDataArr ++ [value]))) }
  | .delMany delDataArr =>
      { s with
        pending := s.pending.filter fun row => row ∉ delDataArr
        running := Function.update s.running uId none }

/-- The queue lets one processing of a user in at a time, those that a callback, a login or a reconnect
asks for; another starts later. With the agent ends what it was doing, but for a deletion that the database
has been asked for. -/
def step (s : PayState) : PayEvent → Option PayState
  | .PayOrderGet orderId pre_order =>
      if s.pre orderId = none then
        some { s with pre := Function.update s.pre orderId (some { pre_order with state := 0 }) }
      else none
  | .PayFinish data => some { s with callbacks := s.callbacks ++ [⟨data, .getPre⟩] }
  | .resume i answer => s.callbacks[i]?.bind fun c => s.resume i c answer
  | .computePendingDataEvent uId isDelayCheck =>
      if s.running uId = none then
        some { s with running := Function.update s.running uId (some (.find isDelayCheck)) }
      else none
  | .process uId answer => (s.running uId).map (s.process uId answer)
  | .exit uId => match s.running uId with
      | some (.delMany _) => some s
      | _ => some { s with running := Function.update s.running uId none }

def start : PayState := ⟨fun _ => none, [], [], [], [], fun _ => none, [], []⟩

end PayState

def PayCallback.Reported (c : PayCallback) : Prop := ∃ ret : PayRet, c.pc = .done ret ∧ ret.ok = true

/-- Every order is pushed and bought at most once, and is pushed if a callback has reported success. -/
structure PaidOnce (s : PayState) : Prop where
  pushed : ∀ o, s.pushed.countP (·.orderId = o) ≤ 1
  bought : ∀ o, s.bought.countP (·.orderId = o) ≤ 1
  reported : ∀ c ∈ s.callbacks, c.Reported → ∃ row ∈ s.pushed, row.orderId = c.orderId

/-- The order has been marked and is not yet pushed. -/
def PayPc.pushing : PayPc → Bool
  | .push _ => true
  | _ => false

/-- The callback has pushed the order, or reports success. -/
def PayPc.past : PayPc → Bool
  | .getUser _ | .addOrder _ => true
  | .done ret => ret.ok
  | _ => false

/-- The order is marked, and no callback is about to push it. -/
def PayState.Ready (s : PayState) (o : OrderId) : Prop :=
  (∃ pre_order ∈ s.pre o, pre_order.state = 1) ∧
    ∀ c ∈ s.callbacks, c.pc.pushing = true → c.orderId ≠ o

instance PayState.decidableReady (s : PayState) (o : OrderId) : Decidable (s.Ready o) :=
  inferInstanceAs (Decidable ((∃ _ ∈ _, _) ∧ ∀ _ ∈ _, _))

/-- A callback does not mark an order that is no longer as it was read, and does not report success, where
it finds the order paid or its transaction done, before the order is ready. -/
def PayState.Quiet (s : PayState) (c : PayCallback) (answer : Bool) : PayPc → Prop
  | .getPre => (c.found (s.pre c.orderId)).past = true → s.Ready c.orderId
  | .confirm pre_order => answer = true → (c.toFinish pre_order).past = true → s.Ready c.orderId
  | .addFail pre_order => (c.toFinish pre_order).past = true → s.Ready c.orderId
  | .getFinish pre_order =>
      s.orders.any c.finished = true ∨ (PayCallback.checkState pre_order).past = true → s.Ready c.orderId
  | .update pre_order => s.pre c.orderId = some pre_order
  | .push _ | .getUser _ | .addOrder _ | .done _ | .raised => True

instance PayState.decidableQuiet (s : PayState) (c : PayCallback) (answer : Bool) :
    (pc : PayPc) → Decidable (s.Quiet c answer pc)
  | .getPre | .addFail _ => inferInstanceAs (Decidable (_ = true → s.Ready _))
  | .confirm _ => inferInstanceAs (Decidable (_ = true → _ = true → s.Ready _))
  | .getFinish _ => inferInstanceAs (Decidable (_ = true ∨ _ = true → s.Ready _))
  | .update _ => inferInstanceAs (Decidable (_ = _))
  | .push _ | .getUser _ | .addOrder _ | .done _ | .raised => inferInstanceAs (Decidable True)

/-- No agent ends between a purchase and the deletion of its row, either. -/
def PayState.Undisturbed (s : PayState) : PayEvent → Prop
  | .resume i answer => ∀ c ∈ s.callbacks[i]?, s.Quiet c answer c.pc
  | .exit uId => ∀ pc ∈ s.running uId, pc.del = [] ∨ pc = .delMany pc.del
  | .PayOrderGet _ _ | .PayFinish _ | .computePendingDataEvent _ _ | .process _ _ => True

instance PayState.decidableUndisturbed (s : PayState) : (e : PayEvent) → Decidable (s.Undisturbed e)
  | .resume _ _ => inferInstanceAs (Decidable (∀ _ ∈ _, _))
  | .exit _ => inferInstanceAs (Decidable (∀ _ ∈ _, _))
  | .PayOrderGet _ _ | .PayFinish _ | .computePendingDataEvent _ _ | .process _ _ =>
      inferInstanceAs (Decidable True)

namespace PayState

def IsPushed (s : PayState) (o : OrderId) : Prop := ∃ row ∈ s.pushed, row.orderId = o

def IsMarked (s : PayState) (o : OrderId) : Prop := ∃ pre_order, s.pre o = some pre_order ∧ pre_order.state = 1

/-- An order that is marked is pushed, or about to be by one callback. -/
structure CallbackInv (s : PayState) : Prop where
  marked : ∀ c ∈ s.callbacks, c.pc.pushing = true → s.IsMarked c.orderId ∧ ¬s.IsPushed c.orderId
  alone : ∀ (i j : Nat) (c c' : PayCallback), s.callbacks[i]? = some c → s.callbacks[j]? = some c' → c.pc.pushing = true →
    c'.pc.pushing = true → c.orderId = c'.orderId → i = j
  pushed : ∀ o, s.IsPushed o → s.IsMarked o
  settled : ∀ o, s.IsMarked o →
    s.IsPushed o ∨ ∃ c ∈ s.callbacks, c.pc.pushing = true ∧ c.orderId = o
  past : ∀ c ∈ s.callbacks, c.pc.past = true → s.IsPushed c.orderId
  unpaid : ∀ c ∈ s.callbacks, ∀ pre_order, c.pc = .update pre_order → pre_order.state ≠ 1

/-- A row is bought once: those that have been and are still there will be deleted by the processing that
bought them. -/
structure ProcessInv (s : PayState) : Prop where
  once : (s.pushed.map PendingRow.orderId).Nodup
  pending : ∀ row ∈ s.pending, row ∈ s.pushed
  rows : s.pending.Nodup
  bought : ∀ row ∈ s.bought, row ∈ s.pushed
  purchases : s.bought.Nodup
  taken : ∀ row ∈ s.pending, row ∈ s.bought → ∃ pc, s.running row.uId = some pc ∧ row ∈ pc.del
  todo : ∀ uId todo delDataArr, s.running uId = some (.buy todo delDataArr) → todo.Nodup ∧
    ∀ row ∈ todo, row.uId = uId ∧ row ∈ s.pushed ∧ row ∉ s.bought

section Callbacks
variable {s t : PayState} {i : Nat} {c : PayCallback} {pc : PayPc} {answer : Bool}

/-- The orders, the callbacks and what is pushed have not changed. -/
theorem CallbackInv.same (inv : CallbackInv s) (pre : t.pre = s.pre) (callbacks : t.callbacks = s.callbacks)
    (pushed : t.pushed = s.pushed) : CallbackInv t := by
  cases t
  obtain rfl := pre
  obtain rfl := callbacks
  obtain rfl := pushed
  exact ⟨inv.marked, inv.alone, inv.pushed, inv.settled, inv.past, inv.unpaid⟩

/-- What the processing works on has not changed. -/
theorem ProcessInv.same (inv : ProcessInv s) (pending : t.pending = s.pending)
    (running : t.running = s.running) (bought : t.bought = s.bought) (pushed : t.pushed = s.pushed) :
    ProcessInv t := by
  cases t
  obtain rfl := pending
  obtain rfl := running
  obtain rfl := bought
  obtain rfl := pushed
  exact ⟨inv.once, inv.pending, inv.rows, inv.bought, inv.purchases, inv.taken, inv.todo⟩

theorem unpaid_checkState {pre_order read : PreOrder}
    (next : PayCallback.checkState read = .update pre_order) : pre_order.state ≠ 1 := by
  rw [PayCallback.checkState] at next
  split at next
  · cases next
  · cases next
    assumption

theorem unpaid_toFinish {pre_order read : PreOrder} (next : c.toFinish read = .update pre_order) :
    pre_order.state ≠ 1 := by
  rw [PayCallback.toFinish] at next
  split at next
  · exact unpaid_checkState next
  · cases next

theorem unpaid_found {pre_order : PreOrder} {read : Option PreOrder}
    (next : c.found read = .update pre_order) : pre_order.state ≠ 1 := by
  cases read with
  | none => cases next
  | some read =>
      rw [PayCallback.found] at next
      split at next
      · cases next
      · exact unpaid_toFinish next

theorem pushing_checkState {pre_order : PreOrder} :
    (PayCallback.checkState pre_order).pushing = false := by
  rw [PayCallback.checkState]
  split
  · rfl
  · rfl

theorem pushing_toFinish {pre_order : PreOrder} : (c.toFinish pre_order).pushing = false := by
  rw [PayCallback.toFinish]
  split
  · exact pushing_checkState
  · rfl

theorem pushing_found {read : Option PreOrder} : (c.found read).pushing = false := by
  cases read with
  | none => rfl
  | some pre_order =>
      rw [PayCallback.found]
      split
      · rfl
      · exact pushing_toFinish

/-- A callback of a list in which one is exchanged. -/
theorem set_cases {cs : List PayCallback} {c' c'' : PayCallback} {j : Nat} (found : cs[i]? = some c)
    (at_ : (cs.set i c')[j]? = some c'') : i = j ∧ c'' = c' ∨ i ≠ j ∧ cs[j]? = some c'' := by
  by_cases same : i = j
  · subst same
    rw [List.getElem?_set_self (List.getElem?_eq_some_iff.mp found).1] at at_
    exact .inl ⟨rfl, (Option.some.inj at_).symm⟩
  · exact .inr ⟨same, (List.getElem?_set_ne same).symm.trans at_⟩

/-- A callback that neither was about to push nor is moves on. -/
theorem inv_goto (inv : CallbackInv s) (found : s.callbacks[i]? = some c) (idle : c.pc.pushing = false)
    (next : pc.pushing = false) (past : pc.past = true → s.IsPushed c.orderId)
    (unpaid : ∀ pre_order, pc = .update pre_order → pre_order.state ≠ 1) :
    CallbackInv (s.goto i c pc) := by
  have old (c' : PayCallback) (mem : c' ∈ s.callbacks.set i { c with pc }) (pushing : c'.pc.pushing = true) :
      c' ∈ s.callbacks := by
    obtain old | rfl := List.mem_or_eq_of_mem_set mem
    · exact old
    · exact absurd pushing (next ▸ Bool.false_ne_true)
  have back (j : Nat) (c' : PayCallback) (at_ : (s.callbacks.set i { c with pc })[j]? = some c')
      (pushing : c'.pc.pushing = true) : s.callbacks[j]? = some c' :=
    ((set_cases found at_).resolve_left fun own =>
      absurd pushing (own.2 ▸ next ▸ Bool.false_ne_true)).2
  refine ⟨fun c' mem pushing => inv.marked c' (old c' mem pushing) pushing,
    fun j k c₁ c₂ first second push₁ push₂ => inv.alone j k c₁ c₂ (back j c₁ first push₁)
      (back k c₂ second push₂) push₁ push₂, inv.pushed, fun o marked => ?_, fun c' mem stage => ?_,
    fun c' mem pre_order => ?_⟩
  · obtain done | ⟨c', mem, pushing, same⟩ := inv.settled o marked
    · exact .inl done
    · have kept := (@exists_mem_set _ (fun c' : PayCallback => c'.pc.pushing = true ∧ c'.orderId = o) _ _ _
        { c with pc } found).mpr (.inl ⟨c', mem, pushing, same⟩)
      exact .inr (kept.resolve_right fun own => absurd own.1 (idle ▸ Bool.false_ne_true))
  · obtain before | rfl := List.mem_or_eq_of_mem_set mem
    · exact inv.past c' before stage
    · exact past stage
  · obtain before | rfl := List.mem_or_eq_of_mem_set mem
    · exact inv.unpaid c' before pre_order
    · exact unpaid pre_order

/-- An order that is as it was read is marked. -/
theorem inv_update {pre_order : PreOrder} (inv : CallbackInv s) (found : s.callbacks[i]? = some c)
    (here : c.pc = .update pre_order) (fresh : s.pre c.orderId = some pre_order) :
    CallbackInv ({ s with
      pre := Function.update s.pre c.orderId (some { pre_order with state := 1 }) }.goto i c
        (.push pre_order)) := by
  have unpaid := inv.unpaid c (List.mem_of_getElem? found) pre_order here
  have unmarked : ¬s.IsMarked c.orderId := by
    rintro ⟨p, row, paid⟩
    obtain rfl := Option.some.inj (fresh.symm.trans row)
    exact unpaid paid
  have idle : c.pc.pushing = false := here ▸ rfl
  have other (c' : PayCallback) (mem : c' ∈ s.callbacks) (pushing : c'.pc.pushing = true) :
      c'.orderId ≠ c.orderId := fun same => unmarked (same ▸ (inv.marked c' mem pushing).1)
  have marks (o : OrderId) (marked : s.IsMarked o) :
      IsMarked { s with
        pre := Function.update s.pre c.orderId (some { pre_order with state := 1 }) } o := by
    obtain ⟨p, row, paid⟩ := marked
    have away : o ≠ c.orderId := by
      rintro rfl
      exact unmarked ⟨p, row, paid⟩
    exact ⟨p, (Function.update_of_ne away _ _).trans row, paid⟩
  refine ⟨fun c' mem pushing => ?_, fun j k c₁ c₂ first second push₁ push₂ same => ?_,
    fun o pushed => marks o (inv.pushed o pushed), fun o marked => ?_, fun c' mem stage => ?_,
    fun c' mem p next => ?_⟩
  · obtain old | rfl := List.mem_or_eq_of_mem_set mem
    · obtain ⟨marked, notPushed⟩ := inv.marked c' old pushing
      exact ⟨marks _ marked, notPushed⟩
    · exact ⟨⟨_, Function.update_self _ _ _, rfl⟩, fun pushed => unmarked (inv.pushed _ pushed)⟩
  · obtain ⟨rfl, rfl⟩ | ⟨-, old₁⟩ := set_cases found first
    · obtain ⟨rfl, -⟩ | ⟨-, old₂⟩ := set_cases found second
      · rfl
      · exact absurd same.symm (other c₂ (List.mem_of_getElem? old₂) push₂)
    · obtain ⟨rfl, rfl⟩ | ⟨-, old₂⟩ := set_cases found second
      · exact absurd same (other c₁ (List.mem_of_getElem? old₁) push₁)
      · exact inv.alone j k c₁ c₂ old₁ old₂ push₁ push₂ same
  · by_cases own : o = c.orderId
    · right
      exact ⟨_, List.mem_set (List.getElem?_eq_some_iff.mp found).1 _, rfl, own.symm⟩
    · obtain ⟨p, row, paid⟩ := marked
      obtain done | ⟨c', mem, pushing, same⟩ :=
        inv.settled o ⟨p, (Function.update_of_ne own _ _).symm.trans row, paid⟩
      · exact .inl done
      · have kept := (@exists_mem_set _ (fun c' : PayCallback => c'.pc.pushing = true ∧ c'.orderId = o)
          _ _ _ { c with pc := .push pre_order } found).mpr (.inl ⟨c', mem, pushing, same⟩)
        exact .inr (kept.resolve_right fun own => absurd own.1 (idle ▸ Bool.false_ne_true))
  · obtain old | rfl := List.mem_or_eq_of_mem_set mem
    · exact inv.past c' old stage
    · cases stage
  · obtain old | rfl := List.mem_or_eq_of_mem_set mem
    · exact inv.unpaid c' old p next
    · cases next

theorem isPushed_concat (rows : List PendingRow) {row : PendingRow} {o : OrderId} :
    IsPushed { s with pending := rows, pushed := s.pushed ++ [row] } o ↔ s.IsPushed o ∨ row.orderId = o := by
  simp only [IsPushed, List.mem_append, List.mem_singleton, or_and_right, exists_or, exists_eq_left]

/-- The order of a callback that has marked it is pushed. -/
theorem inv_push {pre_order : PreOrder} {rows : List PendingRow} {row : PendingRow}
    (inv : CallbackInv s) (found : s.callbacks[i]? = some c) (here : c.pc = .push pre_order)
    (own : row.orderId = c.orderId) : CallbackInv
      ({ s with pending := rows, pushed := s.pushed ++ [row] }.goto i c (.getUser pre_order)) := by
  have mem := List.mem_of_getElem? found
  have pushing : c.pc.pushing = true := here ▸ rfl
  have old (j : Nat) (c' : PayCallback)
      (at_ : (s.callbacks.set i { c with pc := .getUser pre_order })[j]? = some c')
      (pushing : c'.pc.pushing = true) : i ≠ j ∧ s.callbacks[j]? = some c' :=
    (set_cases found at_).resolve_left fun same => absurd pushing (same.2 ▸ Bool.false_ne_true)
  refine ⟨fun c' mem' push => ?_, fun j k c₁ c₂ first second push₁ push₂ => ?_, fun o pushed => ?_,
    fun o marked => ?_, fun c' mem' stage => ?_, fun c' mem' p next => ?_⟩
  · obtain ⟨j, at_⟩ := List.mem_iff_getElem?.mp mem'
    obtain ⟨other, before⟩ := old j c' at_ push
    obtain ⟨marked, notPushed⟩ := inv.marked c' (List.mem_of_getElem? before) push
    refine ⟨marked, fun now => ?_⟩
    obtain earlier | same := (isPushed_concat rows).mp now
    · exact notPushed earlier
    · exact other (inv.alone i j c c' found before pushing push (own.symm.trans same))
  · exact inv.alone j k c₁ c₂ (old j c₁ first push₁).2 (old k c₂ second push₂).2 push₁ push₂
  · obtain earlier | same := (isPushed_concat rows).mp pushed
    · exact inv.pushed o earlier
    · exact same ▸ own ▸ (inv.marked c mem pushing).1
  · obtain earlier | ⟨c', mem', push, same⟩ := inv.settled o marked
    · exact .inl ((isPushed_concat rows).mpr (.inl earlier))
    · obtain ⟨z, mem', push, same⟩ | ⟨-, same⟩ := (@exists_mem_set _
        (fun c' : PayCallback => c'.pc.pushing = true ∧ c'.orderId = o) _ _ _
        { c with pc := .getUser pre_order } found).mpr (.inl ⟨c', mem', push, same⟩)
      · exact .inr ⟨z, mem', push, same⟩
      · exact .inl ((isPushed_concat rows).mpr (.inr (own.trans same)))
  · obtain before | rfl := List.mem_or_eq_of_mem_set mem'
    · exact (isPushed_concat rows).mpr (.inl (inv.past c' before stage))
    · exact (isPushed_concat rows).mpr (.inr own)
  · obtain before | rfl := List.mem_or_eq_of_mem_set mem'
    · exact inv.unpaid c' before p next
    · cases next

theorem pushed_of_ready {o : OrderId} (inv : CallbackInv s) (ready : s.Ready o) : s.IsPushed o :=
  (inv.settled o ready.1).resolve_right fun ⟨c, mem, pushing, same⟩ => ready.2 c mem pushing same

theorem inv_resume (inv : CallbackInv s) (found : s.callbacks[i]? = some c)
    (sound : s.Undisturbed (.resume i answer)) (moved : s.resume i c answer = some t) :
    CallbackInv t := by
  have guard := sound c found
  have past := inv.past c (List.mem_of_getElem? found)
  rw [resume] at moved
  cases here : c.pc with
  | getPre =>
      rw [here] at moved guard
      obtain rfl := Option.some.inj moved
      exact inv_goto inv found (here ▸ rfl) pushing_found (fun stage => pushed_of_ready inv (guard stage))
        fun _ => unpaid_found
  | confirm pre_order =>
      rw [here] at moved guard
      dsimp only at moved
      split at moved
      · rename_i confirmed
        obtain rfl := Option.some.inj moved
        exact inv_goto inv found (here ▸ rfl) pushing_toFinish
          (fun stage => pushed_of_ready inv (guard confirmed stage)) fun _ => unpaid_toFinish
      · obtain rfl := Option.some.inj moved
        exact inv_goto inv found (here ▸ rfl) rfl nofun nofun
  | addFail pre_order =>
      rw [here] at moved guard
      obtain rfl := Option.some.inj moved
      have noted : CallbackInv { s with fails := s.fails ++ [pre_order] } := inv.same rfl rfl rfl
      have ready (stage : (c.toFinish pre_order).past = true) : s.IsPushed c.orderId :=
        pushed_of_ready inv (guard stage)
      exact inv_goto noted found (here ▸ rfl) pushing_toFinish ready fun _ => unpaid_toFinish
  | getFinish pre_order =>
      rw [here] at moved guard
      dsimp only at moved
      split at moved
      · rename_i known
        obtain rfl := Option.some.inj moved
        exact inv_goto inv found (here ▸ rfl) rfl (fun _ => pushed_of_ready inv (guard (.inl known))) nofun
      · obtain rfl := Option.some.inj moved
        exact inv_goto inv found (here ▸ rfl) pushing_checkState
          (fun stage => pushed_of_ready inv (guard (.inr stage))) fun _ => unpaid_checkState
  | update pre_order =>
      rw [here] at moved guard
      have guard : s.pre c.orderId = some pre_order := guard
      dsimp only at moved
      rw [if_pos guard] at moved
      obtain rfl := Option.some.inj moved
      exact inv_update inv found here guard
  | push pre_order =>
      rw [here] at moved
      obtain rfl := Option.some.inj moved
      exact inv_push inv found here rfl
  | getUser pre_order =>
      rw [here] at moved past
      dsimp only at moved
      split at moved
      · obtain rfl := Option.some.inj moved
        exact inv_goto inv found (here ▸ rfl) rfl past nofun
      · obtain rfl := Option.some.inj moved
        exact inv_goto inv found (here ▸ rfl) rfl nofun nofun
  | addOrder pre_order =>
      rw [here] at moved past
      obtain rfl := Option.some.inj moved
      have noted : CallbackInv { s with
          orders := s.orders ++ [⟨c.data.sandbox, c.orderId, c.data.transaction_id⟩] } :=
        inv.same rfl rfl rfl
      exact inv_goto noted found (here ▸ rfl) rfl (fun _ => past rfl) nofun
  | done ret | raised =>
      rw [here] at moved
      cases moved

end Callbacks

section Processing
variable {s t : PayState} {i : Nat} {c : PayCallback} {answer : Bool} {uId : UserId} {pc : PendingPc}

/-- The processing of a user is at another point, and nothing else has changed; a row that was bought and is
still there is one that it will delete. -/
theorem inv_running {next : Option PendingPc} (inv : ProcessInv s)
    (taken : ∀ row ∈ s.pending, row ∈ s.bought → row.uId = uId → ∃ pc, next = some pc ∧ row ∈ pc.del)
    (todo : ∀ todo delDataArr, next = some (.buy todo delDataArr) → todo.Nodup ∧
      ∀ row ∈ todo, row.uId = uId ∧ row ∈ s.pushed ∧ row ∉ s.bought) :
    ProcessInv { s with running := Function.update s.running uId next } := by
  refine ⟨inv.once, inv.pending, inv.rows, inv.bought, inv.purchases, fun row mem bought => ?_,
    fun u todo' del here => ?_⟩
  · by_cases own : row.uId = uId
    · simp only [own, Function.update_self]
      exact taken row mem bought own
    · simp only [Function.update_of_ne own]
      exact inv.taken row mem bought
  · by_cases own : u = uId
    · subst own
      simp only [Function.update_self] at here
      exact todo todo' del here
    · simp only [Function.update_of_ne own] at here
      exact inv.todo u todo' del here

/-- A processing that has bought nothing has left nothing that was bought. -/
theorem untaken (inv : ProcessInv s) (quiet : ∀ pc, s.running uId = some pc → pc.del = []) :
    ∀ row ∈ s.pending, row.uId = uId → row ∉ s.bought := by
  intro row mem own bought
  obtain ⟨pc, here, taken⟩ := inv.taken row mem bought
  rw [quiet pc (own ▸ here)] at taken
  exact List.not_mem_nil taken

/-- A row is bought, and the loop goes on with the rest or ends. -/
theorem inv_buy {value : PendingRow} {todo rest del : List PendingRow} (inv : ProcessInv s)
    (here : s.running uId = some (.buy (value :: todo) del)) (part : rest = todo ∨ rest = []) :
    ProcessInv { s with
      bought := s.bought ++ [value]
      running := Function.update s.running uId (some (.buy rest (del ++ [value]))) } := by
  obtain ⟨distinct, rows⟩ := inv.todo uId (value :: todo) del here
  obtain ⟨own, pushed, new⟩ := rows value List.mem_cons_self
  obtain ⟨once, distinct⟩ := List.nodup_cons.mp distinct
  have counted (row : PendingRow) : row ∈ s.bought ++ [value] ↔ row ∈ s.bought ∨ row = value := by
    rw [List.mem_append, List.mem_singleton]
  have unbought (row : PendingRow) (old : row ∉ s.bought) (other : row ≠ value) :
      row ∉ s.bought ++ [value] := fun mem => ((counted row).mp mem).elim old other
  refine ⟨inv.once, inv.pending, inv.rows, List.forall_mem_append.mpr
    ⟨inv.bought, List.forall_mem_singleton.mpr pushed⟩, ?_, fun row mem bought => ?_,
    fun u todo' del' next => ?_⟩
  · have distinct := (List.nodup_concat s.bought value).mpr ⟨new, inv.purchases⟩
    rwa [List.concat_eq_append] at distinct
  · by_cases mine : row.uId = uId
    · refine ⟨.buy rest (del ++ [value]), by simp only [mine, Function.update_self], ?_⟩
      obtain before | rfl := (counted row).mp bought
      · obtain ⟨pc, same, taken⟩ := inv.taken row mem before
        obtain rfl := Option.some.inj (here.symm.trans (mine ▸ same))
        exact List.mem_append_left _ taken
      · exact List.mem_append_right _ List.mem_cons_self
    · simp only [Function.update_of_ne mine]
      obtain before | rfl := (counted row).mp bought
      · exact inv.taken row mem before
      · exact absurd own mine
  · obtain ⟨rfl, same⟩ | ⟨other, before⟩ := update_some next
    · cases same
      obtain rfl | rfl := part
      · refine ⟨distinct, fun row mem => ?_⟩
        obtain ⟨own, pushed, old⟩ := rows row (List.mem_cons_of_mem value mem)
        exact ⟨own, pushed, unbought row old fun same => once (same ▸ mem)⟩
      · exact ⟨.nil, nofun⟩
    · obtain ⟨distinct, rows'⟩ := inv.todo u todo' del' before
      refine ⟨distinct, fun row mem => ?_⟩
      obtain ⟨own', pushed, old⟩ := rows' row mem
      exact ⟨own', pushed, unbought row old fun same => other (own'.symm.trans (same ▸ own))⟩

theorem inv_process (inv : ProcessInv s) (here : s.running uId = some pc) :
    ProcessInv (s.process uId answer pc) := by
  cases pc with
  | find isDelayCheck =>
      have fresh := @untaken s uId inv fun pc same => by
        obtain rfl := Option.some.inj (here.symm.trans same)
        rfl
      refine inv_running inv (fun row mem bought own => absurd bought (fresh row mem own))
        fun todo del next => ?_
      split at next
      · cases next
        refine ⟨inv.rows.filter _, fun row mem => ?_⟩
        obtain ⟨mem, own⟩ := List.mem_filter.mp mem
        have own := of_decide_eq_true own
        exact ⟨own, inv.pending row mem, fresh row mem own⟩
      · split at next
        · cases next
        · cases next
  | sleep =>
      have fresh := @untaken s uId inv fun pc same => by
        obtain rfl := Option.some.inj (here.symm.trans same)
        rfl
      exact inv_running inv (fun row mem bought own => absurd bought (fresh row mem own)) nofun
  | buy todo delDataArr =>
      cases todo with
      | nil =>
          refine inv_running inv (fun row mem bought own => ⟨_, rfl, ?_⟩) nofun
          obtain ⟨pc, same, taken⟩ := inv.taken row mem bought
          obtain rfl := Option.some.inj (here.symm.trans (own ▸ same))
          exact taken
      | cons value todo =>
          refine inv_buy inv here ?_
          cases answer with
          | true => exact .inl rfl
          | false => exact .inr rfl
  | delMany delDataArr =>
      have left (row : PendingRow) (mem : row ∈ s.pending.filter fun row => row ∉ delDataArr) :
          row ∈ s.pending ∧ row ∉ delDataArr := by
        obtain ⟨mem, out⟩ := List.mem_filter.mp mem
        exact ⟨mem, of_decide_eq_true out⟩
      have deleted : ProcessInv { s with pending := s.pending.filter fun row => row ∉ delDataArr } :=
        ⟨inv.once, fun row mem => inv.pending row (left row mem).1, inv.rows.filter _, inv.bought,
          inv.purchases, fun row mem => inv.taken row (left row mem).1, inv.todo⟩
      refine inv_running deleted (fun row mem bought own => ?_) nofun
      obtain ⟨pc, same, taken⟩ := inv.taken row (left row mem).1 bought
      obtain rfl := Option.some.inj (here.symm.trans (own ▸ same))
      exact absurd taken (left row mem).2

/-- Of what the processing works on, a callback changes only the rows that are pushed. -/
theorem resume_frame (moved : s.resume i c answer = some t) :
    t.running = s.running ∧ t.bought = s.bought ∧
    (t.pending = s.pending ∧ t.pushed = s.pushed ∨ c.pc.pushing = true ∧ ∃ row,
      row.orderId = c.orderId ∧ t.pending = s.pending ++ [row] ∧ t.pushed = s.pushed ++ [row]) := by
  rw [resume] at moved
  cases here : c.pc with
  | getPre | addFail pre_order | addOrder pre_order | update pre_order =>
      rw [here] at moved
      obtain rfl := Option.some.inj moved
      exact ⟨rfl, rfl, .inl ⟨rfl, rfl⟩⟩
  | confirm pre_order | getFinish pre_order | getUser pre_order =>
      rw [here] at moved
      dsimp only at moved
      split at moved
      · obtain rfl := Option.some.inj moved
        exact ⟨rfl, rfl, .inl ⟨rfl, rfl⟩⟩
      · obtain rfl := Option.some.inj moved
        exact ⟨rfl, rfl, .inl ⟨rfl, rfl⟩⟩
  | push pre_order =>
      rw [here] at moved
      obtain rfl := Option.some.inj moved
      exact ⟨rfl, rfl, .inr ⟨rfl, c.row pre_order s.pushed.length, rfl, rfl, rfl⟩⟩
  | done ret | raised =>
      rw [here] at moved
      cases moved

theorem process_resume (inv : ProcessInv s) (callbacks : CallbackInv s)
    (found : s.callbacks[i]? = some c) (moved : s.resume i c answer = some t) : ProcessInv t := by
  obtain ⟨running, bought, ⟨pending, pushed⟩ | ⟨pushing, row, own, pending, pushed⟩⟩ := resume_frame moved
  · exact inv.same pending running bought pushed
  · have new : ∀ row' ∈ s.pushed, row'.orderId ≠ row.orderId := fun row' mem same =>
      (callbacks.marked c (List.mem_of_getElem? found) pushing).2 ⟨row', mem, same.trans own⟩
    have unpushed : row ∉ s.pushed := fun mem => new row mem rfl
    have more (row' : PendingRow) (mem : row' ∈ s.pushed) : row' ∈ s.pushed ++ [row] :=
      List.mem_append_left _ mem
    constructor
    · rw [pushed]
      refine nodup_map_snoc.mpr ⟨fun again => ?_, inv.once⟩
      obtain ⟨row', mem, same⟩ := List.mem_map.mp again
      exact new row' mem same
    · rw [pending, pushed]
      exact List.forall_mem_append.mpr ⟨fun row' mem => more row' (inv.pending row' mem),
        List.forall_mem_singleton.mpr (List.mem_append_right _ List.mem_cons_self)⟩
    · rw [pending, ← List.concat_eq_append]
      exact (List.nodup_concat _ _).mpr ⟨fun mem => unpushed (inv.pending row mem), inv.rows⟩
    · rw [bought, pushed]
      exact fun row' mem => more row' (inv.bought row' mem)
    · rw [bought]
      exact inv.purchases
    · rw [pending, bought, running]
      refine List.forall_mem_append.mpr ⟨inv.taken, List.forall_mem_singleton.mpr fun mem => ?_⟩
      exact absurd (inv.bought row mem) unpushed
    · rw [running, bought, pushed]
      intro u todo del here
      obtain ⟨distinct, rows⟩ := inv.todo u todo del here
      exact ⟨distinct, fun row' mem => ⟨(rows row' mem).1, more row' (rows row' mem).2.1,
        (rows row' mem).2.2⟩⟩

structure PayInv (s : PayState) : Prop extends CallbackInv s, ProcessInv s

/-- A new order is not marked, so what was known of the others stays. -/
theorem inv_order {orderId : OrderId} {pre_order : PreOrder} (inv : CallbackInv s)
    (new : s.pre orderId = none) : CallbackInv { s with
      pre := Function.update s.pre orderId (some { pre_order with state := 0 }) } := by
  have marked (o : OrderId) : IsMarked { s with
      pre := Function.update s.pre orderId (some { pre_order with state := 0 }) } o ↔ s.IsMarked o := by
    by_cases here : o = orderId
    · subst here
      simp [IsMarked, new]
    · simp only [IsMarked, Function.update_of_ne here]
  refine ⟨fun c mem pushing => ?_, inv.alone, fun o pushed => ?_, fun o here => ?_, inv.past, inv.unpaid⟩
  · obtain ⟨before, notPushed⟩ := inv.marked c mem pushing
    exact ⟨(marked c.orderId).mpr before, notPushed⟩
  · exact (marked o).mpr (inv.pushed o pushed)
  · exact inv.settled o ((marked o).mp here)

theorem inv_callback {data : PayData} (inv : CallbackInv s) :
    CallbackInv { s with callbacks := s.callbacks ++ [⟨data, .getPre⟩] } := by
  have old (c : PayCallback) (mem : c ∈ s.callbacks ++ [⟨data, .getPre⟩]) :
      c ∈ s.callbacks ∨ c = ⟨data, .getPre⟩ := by
    rwa [List.mem_append, List.mem_singleton] at mem
  refine ⟨fun c mem pushing => ?_, fun j k c₁ c₂ first second push₁ push₂ => ?_, inv.pushed,
    fun o marked => ?_, fun c mem stage => ?_, fun c mem pre_order next => ?_⟩
  · obtain before | rfl := old c mem
    · exact inv.marked c before pushing
    · cases pushing
  · obtain first | ⟨-, rfl⟩ := concat_cases first
    · obtain second | ⟨-, rfl⟩ := concat_cases second
      · exact inv.alone j k c₁ c₂ first second push₁ push₂
      · cases push₂
    · cases push₁
  · obtain done | ⟨c, mem, pushing, same⟩ := inv.settled o marked
    · exact .inl done
    · exact .inr ⟨c, List.mem_append_left _ mem, pushing, same⟩
  · obtain before | rfl := old c mem
    · exact inv.past c before stage
    · cases stage
  · obtain before | rfl := old c mem
    · exact inv.unpaid c before pre_order next
    · cases next

theorem callbacks_process (inv : CallbackInv s) : CallbackInv (s.process uId answer pc) := by
  cases pc with
  | find | sleep | delMany => exact inv.same rfl rfl rfl
  | buy todo delDataArr =>
      cases todo with
      | nil | cons => exact inv.same rfl rfl rfl

/-- The agent ends while it is not between a purchase and the deletion of its row. -/
theorem inv_exit (inv : PayInv s) (sound : s.Undisturbed (.exit uId)) (moved : s.step (.exit uId) = some t) :
    PayInv t := by
  have stopped (quiet : ∀ pc, s.running uId = some pc → pc.del = []) :
      PayInv { s with running := Function.update s.running uId none } := by
    have fresh := untaken inv.toProcessInv quiet
    exact ⟨inv.toCallbackInv.same rfl rfl rfl,
      inv_running inv.toProcessInv (fun row mem bought own => absurd bought (fresh row mem own)) nofun⟩
  rw [step] at moved
  cases here : s.running uId with
  | none =>
      rw [here] at moved
      obtain rfl := Option.some.inj moved
      exact stopped fun pc same => nomatch here.symm.trans same
  | some pc =>
      rw [here] at moved
      cases pc with
      | find isDelayCheck | sleep =>
          obtain rfl := Option.some.inj moved
          refine stopped fun pc same => ?_
          obtain rfl := Option.some.inj (here.symm.trans same)
          rfl
      | buy todo delDataArr =>
          obtain rfl := Option.some.inj moved
          refine stopped fun pc same => ?_
          obtain rfl := Option.some.inj (here.symm.trans same)
          exact (sound (.buy todo delDataArr) here).resolve_right nofun
      | delMany delDataArr =>
          obtain rfl := Option.some.inj moved
          exact inv

theorem inv_step {e : PayEvent} (inv : PayInv s) (sound : s.Undisturbed e) (moved : s.step e = some t) :
    PayInv t := by
  have callbacks := inv.toCallbackInv
  have rows := inv.toProcessInv
  cases e with
  | PayOrderGet orderId pre_order =>
      rw [step] at moved
      split at moved
      · rename_i new
        obtain rfl := Option.some.inj moved
        exact ⟨inv_order callbacks new, rows.same rfl rfl rfl rfl⟩
      · cases moved
  | PayFinish data =>
      obtain rfl := Option.some.inj moved
      exact ⟨inv_callback callbacks, rows.same rfl rfl rfl rfl⟩
  | resume i answer =>
      obtain ⟨c, found, moved⟩ := Option.bind_eq_some_iff.mp moved
      exact ⟨inv_resume callbacks found sound moved, process_resume rows callbacks found moved⟩
  | computePendingDataEvent uId isDelayCheck =>
      rw [step] at moved
      split at moved
      · rename_i free
        obtain rfl := Option.some.inj moved
        have fresh := untaken rows fun pc same => nomatch free.symm.trans same
        exact ⟨callbacks.same rfl rfl rfl,
          inv_running rows (fun row mem bought own => absurd bought (fresh row mem own)) nofun⟩
      · cases moved
  | process uId answer =>
      obtain ⟨pc, here, rfl⟩ := Option.map_eq_some_iff.mp moved
      exact ⟨callbacks_process callbacks, inv_process rows here⟩
  | exit uId => exact inv_exit inv sound moved

theorem inv_start : PayInv start where
  marked _ mem := absurd mem List.not_mem_nil
  alone i _ c _ first := by
    rw [start, List.getElem?_nil] at first
    cases first
  pushed := fun _ ⟨_, mem, _⟩ => absurd mem List.not_mem_nil
  settled := fun _ ⟨_, none_, _⟩ => nomatch none_
  past _ mem := absurd mem List.not_mem_nil
  unpaid _ mem := absurd mem List.not_mem_nil
  once := .nil
  pending _ mem := absurd mem List.not_mem_nil
  rows := .nil
  bought _ mem := absurd mem List.not_mem_nil
  purchases := .nil
  taken _ mem := absurd mem List.not_mem_nil
  todo _ _ _ here := nomatch here

/-- Rows of different orders, each once. -/
theorem countP_le_one {rows : List PendingRow} (distinct : (rows.map PendingRow.orderId).Nodup)
    (o : OrderId) : rows.countP (·.orderId = o) ≤ 1 := by
  have counted := List.nodup_iff_count_le_one.mp distinct o
  rw [List.count, List.countP_map] at counted
  refine (List.countP_congr fun row _ => ?_).trans_le counted
  simp only [decide_eq_true_eq, Function.comp_apply, beq_iff_eq]

theorem paidOnce_of (inv : PayInv s) : PaidOnce s := by
  refine ⟨countP_le_one inv.once, countP_le_one ?_, fun c mem reported => ?_⟩
  · refine List.Nodup.map_on (fun x memx y memy same => ?_) inv.purchases
    exact List.inj_on_of_nodup_map inv.once (inv.bought x memx) (inv.bought y memy) same
  · obtain ⟨ret, here, ok⟩ := reported
    exact inv.past c mem (here ▸ ok)

/-- In every run without these overlaps. -/
theorem run_pays {es : List PayEvent} (run : Run step Undisturbed start es s) : PaidOnce s :=
  paidOnce_of (run.invariant PayInv inv_start fun _ _ _ inv sound moved => inv_step inv sound moved)

end Processing

def payData : PayData := ⟨7, some 5, false, none, 0⟩

/-- A paid order, processed while its callback goes on, and a repeated callback. -/
def payEvents : List PayEvent :=
  [.PayOrderGet 7 ⟨1, 60, 0, false, 0⟩, .PayFinish payData, .resume 0 true, .resume 0 true, .resume 0 true,
    .resume 0 true, .computePendingDataEvent 1 true, .process 1 true, .resume 0 true, .process 1 true,
    .resume 0 true, .process 1 true, .process 1 true, .exit 1, .PayFinish payData, .resume 1 true,
    .resume 1 true]

theorem run_pays_repeated : ∃ s, Run step Undisturbed start payEvents s ∧
    (s.bought.length = 1 ∧ s.callbacks.map PayCallback.pc =
      [.done ⟨true, 1, "success"⟩, .done ⟨true, 5, "order finish"⟩]) ∧ PaidOnce s := by
  obtain ⟨s, run, shown⟩ := run_of_guarded_any step Undisturbed start payEvents
    (fun s => s.bought.length = 1 ∧ s.callbacks.map PayCallback.pc =
      [.done ⟨true, 1, "success"⟩, .done ⟨true, 5, "order finish"⟩]) (by decide)
  exact ⟨s, run, shown, run_pays run⟩

/-- Two callbacks of an order read it before either has marked it, and both push it. -/
theorem pays_fail : ¬∀ es s, Run step anyStep start es s → PaidOnce s := by
  intro all
  obtain ⟨s, run, pushed, bought⟩ := run_of_exec_any step start
    [.PayOrderGet 7 ⟨1, 60, 0, false, 0⟩, .PayFinish payData, .PayFinish payData, .resume 0 true,
      .resume 1 true, .resume 0 true, .resume 1 true, .resume 0 true, .resume 1 true, .resume 0 true,
      .resume 1 true, .computePendingDataEvent 1 false, .process 1 true, .process 1 true, .process 1 true]
    (fun s => s.pushed.countP (·.orderId = 7) = 2 ∧ s.bought.countP (·.orderId = 7) = 2) (by decide)
  have once := (all _ s run).bought 7
  rw [bought] at once
  exact absurd once (Nat.not_succ_le_self 1)

end PayState

end HuluLandlord.Services
