import HuluLandlord.Transition

/-!
The messages that an agent pushes to its client. Two queues keep those that cannot be sent: the one what is
pushed while the client is offline, the other what must not get lost before the client has logged in. A reconnect
and a login wait for the database before they are through, and what is pushed meanwhile is handled at once.
-/
namespace HuluLandlord.Agent
open Transition

structure ClientMsg where
  name : String
  param : Nat
  deriving DecidableEq, Repr

/-- An entry of a queue; one that has been sent has lost its name. -/
abbrev QueuedMsg := Option ClientMsg

inductive WhichQueue
  | msgQueueOfflineToClient | msgQueueToClient
  deriving DecidableEq, Repr

/-- `logins` and `reconnects` are those in progress, `sent` is what the client has got. `accepted` are the
messages for a client that has logged in, in the order in which they were to be delivered, and `kept` those
that wait for that. -/
structure MsgAgent where
  isLoginEnd : Bool
  online : Bool
  msgQueueOfflineToClient : List QueuedMsg
  msgQueueToClient : List QueuedMsg
  logins : Nat
  reconnects : Nat
  sent : List ClientMsg
  accepted : List ClientMsg
  kept : List ClientMsg
  deriving DecidableEq, Repr

inductive MsgEvent
  | send_push (msg : ClientMsg) (isSure : Bool)
  | GetUserInfo
  | afk
  | reconnect
  | reconnected
  | login
  | loggedIn
  deriving DecidableEq, Repr

namespace MsgAgent

def send_push (s : MsgAgent) (msg : ClientMsg) (isSure : Bool) : MsgAgent :=
  if s.isLoginEnd then
    if ¬s.online then { s with msgQueueOfflineToClient := s.msgQueueOfflineToClient ++ [some msg] }
    else { s with sent := s.sent ++ [msg] }
  else if isSure then { s with msgQueueToClient := s.msgQueueToClient ++ [some msg] }
  else s

def msgQueue (s : MsgAgent) : WhichQueue → List QueuedMsg
  | .msgQueueOfflineToClient => s.msgQueueOfflineToClient
  | .msgQueueToClient => s.msgQueueToClient

def setMsgQueue (s : MsgAgent) (q : List QueuedMsg) : WhichQueue → MsgAgent
  | .msgQueueOfflineToClient => { s with msgQueueOfflineToClient := q }
  | .msgQueueToClient => { s with msgQueueToClient := q }

/-- The body of the loop of `sendMsgQueue`: the entry at the index is sent, and the first one is removed. -/
def sendAt (s : MsgAgent) (which : WhichQueue) (i : Nat) : MsgAgent :=
  match (s.msgQueue which)[i]? with
  | none => s
  | some obj =>
      let s := obj.elim s fun msg => s.send_push msg false
      s.setMsgQueue (((s.msgQueue which).set i none).eraseIdx 0) which

def sendFrom (s : MsgAgent) (which : WhichQueue) (i : Nat) : Nat → MsgAgent
  | 0 => s
  | n + 1 => sendFrom (s.sendAt which i) which (i + 1) n

def sendMsgQueue (s : MsgAgent) (which : WhichQueue) : MsgAgent :=
  s.sendFrom which 0 (s.msgQueue which).length

def step (s : MsgAgent) : MsgEvent → Option MsgAgent
  | .send_push msg isSure =>
      some { s.send_push msg isSure with
        accepted := if s.isLoginEnd then s.accepted ++ [msg] else s.accepted
        kept := if ¬s.isLoginEnd ∧ isSure then s.kept ++ [msg] else s.kept }
  | .GetUserInfo =>
      some ({ s with isLoginEnd := true, accepted := s.accepted ++ s.kept, kept := [] }.sendMsgQueue
        .msgQueueToClient)
  | .afk => some { s with online := false }
  | .reconnect => some { s with online := true, reconnects := s.reconnects + 1 }
  | .reconnected =>
      if s.reconnects = 0 then none
      else some ({ s with reconnects := s.reconnects - 1 }.sendMsgQueue .msgQueueOfflineToClient)
  | .login => some { s with isLoginEnd := false, msgQueueOfflineToClient := [], logins := s.logins + 1 }
  | .loggedIn => if s.logins = 0 then none else some { s with online := true, logins := s.logins - 1 }

def start : MsgAgent := ⟨false, false, [], [], 0, 0, [], [], []⟩

/-- What the client has got is what was to be delivered, each message once and in this order, up to what waits
in the queue. Nothing waits when the client is back, or has logged in. -/
structure DeliveredOnce (s : MsgAgent) : Prop where
  inOrder : ∃ waiting, s.msgQueueOfflineToClient = waiting.map some ∧ s.sent ++ waiting = s.accepted
  kept : s.msgQueueToClient = s.kept.map some
  back : s.online = true → s.reconnects = 0 → s.msgQueueOfflineToClient = []
  loggedIn : s.isLoginEnd = true → s.msgQueueToClient = []

/-- No queue is sent that has more than one message, nothing is pushed past the queue of a client that is back
and has not got it yet, and no login finds messages for a client that was offline. -/
def InTurn (s : MsgAgent) : MsgEvent → Prop
  | .send_push _ _ => s.isLoginEnd = true → s.online = true → s.msgQueueOfflineToClient = []
  | .GetUserInfo => s.msgQueueToClient.length ≤ 1
  | .reconnected => s.msgQueueOfflineToClient.length ≤ 1
  | .login => s.msgQueueOfflineToClient = []
  | .loggedIn => s.reconnects = 0 → s.msgQueueOfflineToClient = []
  | .afk | .reconnect => True

instance decidableInTurn (s : MsgAgent) : (e : MsgEvent) → Decidable (s.InTurn e)
  | .send_push _ _ => inferInstanceAs (Decidable (_ = true → _ = true → _ = []))
  | .GetUserInfo | .reconnected => inferInstanceAs (Decidable (_ ≤ 1))
  | .login => inferInstanceAs (Decidable (_ = []))
  | .loggedIn => inferInstanceAs (Decidable (_ = 0 → _ = []))
  | .afk | .reconnect => inferInstanceAs (Decidable True)

/-- Before the login is through, nothing is queued for an offline client. -/
structure MsgInv (s : MsgAgent) : Prop extends DeliveredOnce s where
  early : s.isLoginEnd = false → s.msgQueueOfflineToClient = []

section Pushes
variable {s t : MsgAgent} {msg : ClientMsg} {isSure : Bool} {e : MsgEvent} {es : List MsgEvent}

/-- A queue of one message, sent to a client that is there or that is not. -/
theorem sendMsgQueue_offline (one : s.msgQueueOfflineToClient = [some msg]) (ended : s.isLoginEnd = true) :
    s.sendMsgQueue .msgQueueOfflineToClient =
      if s.online then { s with msgQueueOfflineToClient := [], sent := s.sent ++ [msg] } else s := by
  cases s
  obtain rfl := one
  obtain rfl := ended
  rename_i online _ _ _ _ _ _
  cases online with
  | true | false => rfl

theorem sendMsgQueue_kept (one : s.msgQueueToClient = [some msg]) (ended : s.isLoginEnd = true) :
    s.sendMsgQueue .msgQueueToClient =
      { s.send_push msg false with msgQueueToClient := [] } := by
  cases s
  obtain rfl := one
  obtain rfl := ended
  rename_i online _ _ _ _ _ _
  cases online with
  | true | false => rfl

theorem sendMsgQueue_nil {which : WhichQueue} (empty : s.msgQueue which = []) : s.sendMsgQueue which = s := by
  rw [sendMsgQueue, empty]
  rfl

@[simp] theorem send_push_kept : (s.send_push msg isSure).kept = s.kept := by
  unfold send_push
  split
  · split
    · rfl
    · rfl
  · split
    · rfl
    · rfl

/-- A message that is accepted is sent, or waits behind those before it. -/
theorem inv_accept (inv : MsgInv s) (ended : s.isLoginEnd = true)
    (turn : s.online = true → s.msgQueueOfflineToClient = []) :
    MsgInv { s.send_push msg isSure with accepted := s.accepted ++ [msg] } := by
  obtain ⟨waiting, queue, order⟩ := inv.inOrder
  rw [send_push, if_pos ended]
  split
  · rename_i off
    refine ⟨⟨⟨waiting ++ [msg], ?_, ?_⟩, inv.kept, fun on => absurd on off, inv.loggedIn⟩,
      fun early => ?_⟩
    · rw [queue, List.map_append, List.map_singleton]
    · rw [← order, List.append_assoc]
    · exact absurd (ended.symm.trans early) Bool.noConfusion
  · rename_i on
    have empty := turn (not_not.mp on)
    have none_ : waiting = [] := List.map_eq_nil_iff.mp (queue.symm.trans empty)
    rw [none_, List.append_nil] at order
    refine ⟨⟨⟨[], empty, ?_⟩, inv.kept, fun _ _ => empty, inv.loggedIn⟩, inv.early⟩
    rw [List.append_nil, order]

theorem inv_push (inv : MsgInv s) (turn : s.InTurn (.send_push msg isSure))
    (moved : s.step (.send_push msg isSure) = some t) : MsgInv t := by
  obtain rfl := Option.some.inj moved
  cases ended : s.isLoginEnd with
  | true => simpa [ended] using @inv_accept s msg isSure inv ended (turn ended)
  | false =>
      have empty := inv.early ended
      cases isSure with
      | false =>
          have same : s.send_push msg false = s := by simp [send_push, ended]
          have still : MsgInv { s with isLoginEnd := false } :=
            ⟨⟨inv.inOrder, inv.kept, inv.back, Bool.noConfusion⟩, fun _ => empty⟩
          simpa [same, ended] using still
      | true =>
          have kept : s.msgQueueToClient ++ [some msg] = (s.kept ++ [msg]).map some := by
            rw [inv.kept, List.map_append, List.map_singleton]
          have waits : s.send_push msg true =
              { s with msgQueueToClient := s.msgQueueToClient ++ [some msg] } := by simp [send_push, ended]
          have still : MsgInv { s with
              msgQueueToClient := s.msgQueueToClient ++ [some msg], kept := s.kept ++ [msg] } :=
            ⟨⟨inv.inOrder, kept, inv.back, fun now => absurd (ended.symm.trans now) Bool.noConfusion⟩,
              fun _ => empty⟩
          simpa [waits, ended] using still

/-- The client has logged in, and gets what was kept for it. -/
theorem inv_GetUserInfo (inv : MsgInv s) (short : s.msgQueueToClient.length ≤ 1)
    (moved : s.step .GetUserInfo = some t) : MsgInv t := by
  obtain rfl := Option.some.inj moved
  cases queued : s.kept with
  | nil =>
      have empty : s.msgQueueToClient = [] := by rw [inv.kept, queued, List.map_nil]
      have none_ : ({ s with isLoginEnd := true, accepted := s.accepted ++ [], kept := [] } :
          MsgAgent).sendMsgQueue .msgQueueToClient = _ := sendMsgQueue_nil empty
      rw [none_, List.append_nil]
      exact ⟨⟨inv.inOrder, empty, inv.back, fun _ => empty⟩, fun early => absurd early (by simp)⟩
  | cons msg rest =>
      have one : rest = [] := by
        rw [inv.kept, queued, List.length_map, List.length_cons] at short
        exact List.length_eq_zero_iff.mp (by omega)
      rw [one] at queued ⊢
      have waits : s.msgQueueToClient = [some msg] := by rw [inv.kept, queued, List.map_singleton]
      -- a message is kept only while the client has not logged in
      have empty : s.msgQueueOfflineToClient = [] := by
        refine inv.early (Bool.eq_false_iff.mpr fun ended => ?_)
        cases waits.symm.trans (inv.loggedIn ended)
      have ready : MsgInv { s with isLoginEnd := true, msgQueueToClient := [], kept := [] } :=
        ⟨⟨inv.inOrder, rfl, inv.back, fun _ => rfl⟩, fun _ => empty⟩
      have got := @inv_accept _ msg false ready rfl fun _ => empty
      have sends : ({ s with isLoginEnd := true, accepted := s.accepted ++ [msg], kept := [] } :
          MsgAgent).sendMsgQueue .msgQueueToClient = _ := sendMsgQueue_kept waits rfl
      rw [sends]
      cases online : s.online with
      | true | false => simpa [send_push, online] using got

/-- A client that is back gets what waited for it, and one that is gone again lets it wait. -/
theorem inv_reconnected (inv : MsgInv s) (short : s.msgQueueOfflineToClient.length ≤ 1)
    (moved : s.step .reconnected = some t) : MsgInv t := by
  rw [step] at moved
  split at moved
  · cases moved
  obtain rfl := Option.some.inj moved
  obtain ⟨waiting, queue, order⟩ := inv.inOrder
  cases waiting with
  | nil =>
      have none_ : ({ s with reconnects := s.reconnects - 1 } :
          MsgAgent).sendMsgQueue .msgQueueOfflineToClient = _ := sendMsgQueue_nil queue
      rw [none_]
      exact ⟨⟨⟨[], queue, order⟩, inv.kept, fun _ _ => queue, inv.loggedIn⟩, inv.early⟩
  | cons msg rest =>
      have one : rest = [] := by
        rw [queue, List.length_map, List.length_cons] at short
        exact List.length_eq_zero_iff.mp (by omega)
      rw [one] at queue order
      have ended : s.isLoginEnd = true := by
        refine Bool.eq_true_of_not_eq_false fun early => ?_
        cases queue.symm.trans (inv.early early)
      have sends : ({ s with reconnects := s.reconnects - 1 } :
          MsgAgent).sendMsgQueue .msgQueueOfflineToClient = _ := sendMsgQueue_offline queue ended
      rw [sends]
      split
      · rename_i on
        exact ⟨⟨⟨[], rfl, (List.append_nil _).trans order⟩, inv.kept, fun _ _ => rfl, inv.loggedIn⟩,
          fun _ => rfl⟩
      · rename_i off
        exact ⟨⟨⟨[msg], queue, order⟩, inv.kept, fun on => absurd on off, inv.loggedIn⟩, inv.early⟩

theorem inv_login (inv : MsgInv s) (empty : s.msgQueueOfflineToClient = [])
    (moved : s.step .login = some t) : MsgInv t := by
  obtain rfl := Option.some.inj moved
  obtain ⟨waiting, queue, order⟩ := inv.inOrder
  have none_ : waiting = [] := List.map_eq_nil_iff.mp (queue.symm.trans empty)
  rw [none_] at order
  exact ⟨⟨⟨[], rfl, order⟩, inv.kept, fun _ _ => rfl, Bool.noConfusion⟩, fun _ => rfl⟩

theorem inv_loggedIn (inv : MsgInv s)
    (empty : s.reconnects = 0 → s.msgQueueOfflineToClient = []) (moved : s.step .loggedIn = some t) : MsgInv t := by
  rw [step] at moved
  split at moved
  · cases moved
  obtain rfl := Option.some.inj moved
  exact ⟨⟨inv.inOrder, inv.kept, fun _ none_ => empty none_, inv.loggedIn⟩, inv.early⟩

theorem inv_step (inv : MsgInv s) (turn : s.InTurn e) (moved : s.step e = some t) : MsgInv t := by
  cases e with
  | send_push msg isSure => exact inv_push inv turn moved
  | GetUserInfo => exact inv_GetUserInfo inv turn moved
  | afk =>
      obtain rfl := Option.some.inj moved
      exact ⟨⟨inv.inOrder, inv.kept, Bool.noConfusion, inv.loggedIn⟩, inv.early⟩
  | reconnect =>
      obtain rfl := Option.some.inj moved
      exact ⟨⟨inv.inOrder, inv.kept, fun _ none_ => absurd none_ (by simp), inv.loggedIn⟩, inv.early⟩
  | reconnected => exact inv_reconnected inv turn moved
  | login => exact inv_login inv turn moved
  | loggedIn => exact inv_loggedIn inv turn moved

theorem inv_start : MsgInv start :=
  ⟨⟨⟨[], rfl, rfl⟩, rfl, fun _ _ => rfl, fun _ => rfl⟩, fun _ => rfl⟩

end Pushes

/-- In a run in which no queue is sent that has more than one message, the client gets everything in order. -/
theorem run_delivers {s : MsgAgent} {es : List MsgEvent} (run : Run step InTurn start es s) :
    s.DeliveredOnce :=
  (run.invariant MsgInv inv_start fun _ _ _ inv turn moved => inv_step inv turn moved).toDeliveredOnce

/-- A message is kept until the client has logged in, and one waits for its reconnect. -/
theorem run_delivers_two : ∃ s,
    Run step InTurn start [.login, .loggedIn, .send_push ⟨"a", 1⟩ true, .GetUserInfo, .afk,
      .send_push ⟨"b", 2⟩ false, .reconnect, .reconnected] s ∧
    s.sent = [⟨"a", 1⟩, ⟨"b", 2⟩] ∧ s.DeliveredOnce := by
  obtain ⟨s, run, both⟩ := run_of_guarded_any step InTurn start
    [.login, .loggedIn, .send_push ⟨"a", 1⟩ true, .GetUserInfo, .afk,
      .send_push ⟨"b", 2⟩ false, .reconnect, .reconnected]
    (fun s => s.sent = [⟨"a", 1⟩, ⟨"b", 2⟩]) (by decide)
  exact ⟨s, run, both, run_delivers run⟩

/-- Of three messages for a client that is offline, the second is removed in place of the third, which was sent. -/
theorem delivers_fail : ¬∀ es s, Run step anyStep start es s → s.DeliveredOnce := by
  intro all
  obtain ⟨s, run, skipped⟩ := run_of_exec_any step start
    [.login, .loggedIn, .GetUserInfo, .afk, .send_push ⟨"a", 1⟩ false, .send_push ⟨"b", 2⟩ false,
      .send_push ⟨"c", 3⟩ false, .reconnect, .reconnected]
    (fun s => s.online = true ∧ s.reconnects = 0 ∧ s.msgQueueOfflineToClient ≠ []) (by decide)
  exact skipped.2.2 ((all _ s run).back skipped.1 skipped.2.1)

end MsgAgent

end HuluLandlord.Agent
