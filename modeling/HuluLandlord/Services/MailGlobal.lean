import HuluLandlord.Define
import HuluLandlord.Table
import HuluLandlord.Transition

/-!
The mails that go to all users. Each user is sent those that he has not been sent before, when he comes
online, by a command of the mail service. The command reads what he has been sent, goes through the
list of the mails in memory, and notes in the database what it sends; other commands, the reloading of
the list and the clean-up run while it waits. A command takes a step of its own for each mail here: the
code goes through several mails in one step, which is one of the orders.
-/
namespace HuluLandlord.Services
open Transition Table

/-- A row of `MailGlobal`, without what the mail says. -/
structure GlobalMail where
  id : Nat
  startDt : Int
  endDt : Int
  channelArr : List String
  startRegDt : Option Int
  endRegDt : Option Int
  deriving DecidableEq, Repr

/-- A row of `UserMailGlobal`: what a user has been sent. -/
structure SentRecord where
  id : UserId
  mailGid : Nat
  endDt : Int
  deriving DecidableEq, Repr

/-- Where a command waits, and the mails it has still to go through. -/
inductive MailPc
  | find
  | found
  | next (rest : List GlobalMail)
  | channel (mail : GlobalMail) (rest : List GlobalMail)
  | record (mail : GlobalMail) (rest : List GlobalMail)
  | done
  deriving DecidableEq, Repr

/-- A command `ComputeMailGlobal` and its locals. `readAt` says how many records had ever been written
when it read those of its user. -/
structure MailCmd where
  uId : UserId
  channel : Option String
  regDt : Int
  uDatas : List Nat
  now : Int
  datas : List GlobalMail
  readAt : Nat
  pc : MailPc
  deriving DecidableEq, Repr

/-- A clean-up: what is over is deleted from both tables, then the list is read again. -/
inductive CleanPc
  | delMails (now : Int)
  | delRecords (now : Int)
  | updateDatas
  | find (now : Int)
  | assign (datas : List GlobalMail)
  | done
  deriving DecidableEq, Repr

/-- What a command has made of a mail; `channel` is that of the user. -/
structure MailVisit where
  command : Nat
  uId : UserId
  channel : Option String
  regDt : Int
  mail : GlobalMail
  now : Int
  sent : Bool
  deriving DecidableEq, Repr

/-- The database, the list in memory and what is going on. `published` and `written` are all mails and
records there have ever been; `visits` has the last one first. -/
structure MailService where
  now : Int
  mails : List GlobalMail
  records : List SentRecord
  mailGlobalDatas : List GlobalMail
  cmds : List MailCmd
  cleanups : List CleanPc
  published : List GlobalMail
  written : List (UserId × Nat)
  visits : List MailVisit

inductive MailStep
  | ComputeMailGlobal (uId : UserId) (channel : Option String) (regDt : Int)
  | resume (i : Nat)
  | timer
  | clean (k : Nat)
  | publish (mail : GlobalMail)
  | tick (dt : Nat)
  deriving DecidableEq, Repr

namespace MailCmd

/-- The mail is not among what the user has been sent, and it is valid. -/
def isNew (c : MailCmd) (mail : GlobalMail) : Bool :=
  mail.id ∉ c.uDatas ∧ mail.startDt ≤ c.now ∧ c.now < mail.endDt

/-- The channel has to be asked for. -/
def needsChannel (c : MailCmd) (mail : GlobalMail) : Bool :=
  mail.channelArr ≠ [] ∧ c.channel = none

/-- The mail is for users of this channel and this time of registration. -/
def isSend (c : MailCmd) (mail : GlobalMail) : Bool :=
  (mail.channelArr = [] ∨ ∃ channel ∈ c.channel, channel ∈ mail.channelArr) ∧
    ∀ start ∈ mail.startRegDt, ∀ stop ∈ mail.endRegDt, ¬(c.regDt < start ∨ c.regDt ≥ stop)

end MailCmd

namespace MailService
variable (channels : UserId → Option String)

def setCmd (s : MailService) (i : Nat) (c : MailCmd) (pc : MailPc) : MailService :=
  { s with cmds := s.cmds.set i { c with pc } }

/-- A command has decided about a mail. -/
def visit (s : MailService) (i : Nat) (c : MailCmd) (mail : GlobalMail) (sent : Bool) (pc : MailPc) :
    MailService :=
  { s.setCmd i c pc with
    visits := ⟨i, c.uId, c.channel <|> channels c.uId, c.regDt, mail, c.now, sent⟩ :: s.visits }

/-- A mail for the user is sent, and then noted. -/
def decide (s : MailService) (i : Nat) (c : MailCmd) (mail : GlobalMail) (rest : List GlobalMail) :
    MailService :=
  if c.isSend mail then s.visit channels i c mail true (.record mail rest)
  else s.visit channels i c mail false (.next rest)

def ComputeMailGlobal (s : MailService) (uId : UserId) (channel : Option String) (regDt : Int) :
    MailService :=
  let pc := if s.mailGlobalDatas = [] then .done else .find
  { s with cmds := s.cmds ++ [⟨uId, channel, regDt, [], s.now, [], 0, pc⟩] }

/-- A command goes on. -/
def resume (s : MailService) (i : Nat) (c : MailCmd) : Option MailService :=
  match c.pc with
  | .find =>
      let uDatas := (s.records.filter (·.id = c.uId)).map (·.mailGid)
      some (s.setCmd i { c with uDatas, readAt := s.written.length } .found)
  | .found =>
      some (s.setCmd i { c with now := s.now, datas := s.mailGlobalDatas } (.next s.mailGlobalDatas))
  | .next [] => some (s.setCmd i c .done)
  | .next (mail :: rest) =>
      if c.isNew mail then
        if c.needsChannel mail then some (s.setCmd i c (.channel mail rest))
        else some (s.decide channels i c mail rest)
      else some (s.visit channels i c mail false (.next rest))
  | .channel mail rest => some (s.decide channels i { c with channel := channels c.uId } mail rest)
  | .record mail rest =>
      some { s.setCmd i c (.next rest) with
        records := s.records ++ [⟨c.uId, mail.id, mail.endDt⟩]
        written := s.written ++ [(c.uId, mail.id)] }
  | .done => none

def setClean (s : MailService) (k : Nat) (pc : CleanPc) : MailService :=
  { s with cleanups := s.cleanups.set k pc }

/-- A clean-up goes on. -/
def clean (s : MailService) (k : Nat) : CleanPc → Option MailService
  | .delMails now =>
      some { s.setClean k (.delRecords now) with mails := s.mails.filter fun m => ¬m.endDt < now }
  | .delRecords now =>
      some { s.setClean k .updateDatas with records := s.records.filter fun r => ¬r.endDt < now }
  | .updateDatas => some (s.setClean k (.find s.now))
  | .find now =>
      some (s.setClean k (.assign (s.mails.filter fun m => m.startDt ≤ now ∧ m.endDt > now)))
  | .assign datas => some { s.setClean k .done with mailGlobalDatas := datas }
  | .done => none

def step (s : MailService) : MailStep → Option MailService
  | .ComputeMailGlobal uId channel regDt => some (s.ComputeMailGlobal uId channel regDt)
  | .resume i => s.cmds[i]?.bind (s.resume channels i)
  | .timer => some { s with cleanups := s.cleanups ++ [.delMails s.now] }
  | .clean k => s.cleanups[k]?.bind (s.clean k)
  | .publish mail =>
      if mail.id ∈ s.published.map (·.id) then none
      else some { s with mails := s.mails ++ [mail], published := s.published ++ [mail] }
  | .tick dt => some { s with now := s.now + dt }

def start (now : Int) : MailService := ⟨now, [], [], [], [], [], [], [], []⟩

end MailService

namespace MailVisit

/-- The mail is due: it is valid, the user has not been sent it before, and it is for him. -/
structure Due (v : MailVisit) (before : List MailVisit) : Prop where
  valid : v.mail.startDt ≤ v.now ∧ v.now < v.mail.endDt
  unsent : ∀ w ∈ before, w.sent = true → w.uId = v.uId → w.mail.id ≠ v.mail.id
  channel : v.mail.channelArr = [] ∨ ∃ channel ∈ v.channel, channel ∈ v.mail.channelArr
  registered : ∀ start stop, v.mail.startRegDt = some start → v.mail.endRegDt = some stop →
    start ≤ v.regDt ∧ v.regDt < stop

/-- Of all visits, those that send a mail are those that find it due. -/
def AllRight : List MailVisit → Prop
  | [] => True
  | v :: before => (v.sent = true ↔ v.Due before) ∧ AllRight before

end MailVisit

namespace MailCmd

/-- The mails a command has still to go through. -/
def ahead (c : MailCmd) : List GlobalMail :=
  match c.pc with
  | .next rest | .record _ rest => rest
  | .channel mail rest => mail :: rest
  | .find | .found | .done => []

/-- The mail a command has sent and not yet noted. -/
def recording (c : MailCmd) : Option (UserId × Nat) :=
  match c.pc with
  | .record mail _ => some (c.uId, mail.id)
  | .find | .found | .next _ | .channel _ _ | .done => none

/-- The mail a command is about to send. -/
def sends (channels : UserId → Option String) (c : MailCmd) : Option GlobalMail :=
  match c.pc with
  | .next (mail :: _) =>
      if c.isNew mail ∧ ¬c.needsChannel mail ∧ c.isSend mail then some mail else none
  | .channel mail _ =>
      if { c with channel := channels c.uId }.isSend mail then some mail else none
  | .next [] | .find | .found | .record _ _ | .done => none

end MailCmd

/-- What the visits have sent. -/
def sentKeys (visits : List MailVisit) : List (UserId × Nat) :=
  (visits.filter (·.sent)).map fun v => (v.uId, v.mail.id)

namespace MailService
variable (channels : UserId → Option String)

/-- A mail is sent only if nothing has been noted of it since the command read what the user has been
sent, and no command has sent it and not yet noted it. -/
def Fresh (s : MailService) : MailStep → Prop
  | .resume i => ∀ c ∈ s.cmds[i]?, ∀ mail ∈ c.sends channels,
      (c.uId, mail.id) ∉ s.written.drop c.readAt ∧
      ∀ c' ∈ s.cmds, c'.recording ≠ some (c.uId, mail.id)
  | .ComputeMailGlobal _ _ _ | .timer | .clean _ | .publish _ | .tick _ => True

/-- A mail with this id has been over before a time. -/
def Over (s : MailService) (id : Nat) (time : Int) : Prop :=
  ∃ mail ∈ s.published, mail.id = id ∧ mail.endDt < time

/-- When a command takes the mails to be valid: in `found`, that is still to come. -/
def time (s : MailService) (c : MailCmd) : Int :=
  match c.pc with
  | .find | .found => s.now
  | .next _ | .channel _ _ | .record _ _ | .done => c.now

/-- What a command knows: of what was noted before it read, only what is over is missing. -/
structure Informed (s : MailService) (c : MailCmd) : Prop where
  ahead : ∀ mail ∈ c.ahead, mail ∈ s.published
  readAt : c.readAt ≤ s.written.length
  read : ∀ key ∈ s.written.take c.readAt, key.1 = c.uId →
    key.2 ∈ c.uDatas ∨ s.Over key.2 (s.time c)
  uDatas : ∀ id ∈ c.uDatas, (c.uId, id) ∈ s.written
  chosen : ∀ mail rest, c.pc = .channel mail rest → c.isNew mail = true
  noting : ∀ mail rest, c.pc = .record mail rest → mail ∈ s.published

def CleanOk (s : MailService) : CleanPc → Prop
  | .delMails now | .delRecords now => now ≤ s.now
  | .assign datas => ∀ mail ∈ datas, mail ∈ s.published
  | .updateDatas | .find _ | .done => True

structure MailInv (s : MailService) : Prop where
  ids : (s.published.map (·.id)).Nodup
  mails : ∀ mail ∈ s.mails, mail ∈ s.published
  datas : ∀ mail ∈ s.mailGlobalDatas, mail ∈ s.published
  cleanups : ∀ pc ∈ s.cleanups, s.CleanOk pc
  cmds : ∀ c ∈ s.cmds, s.Informed c
  records : ∀ r ∈ s.records, (∃ mail ∈ s.published, mail.id = r.mailGid ∧ mail.endDt = r.endDt) ∧
    (r.id, r.mailGid) ∈ s.written
  noted : ∀ key ∈ s.written, (∃ r ∈ s.records, (r.id, r.mailGid) = key) ∨ s.Over key.2 s.now
  sent : ∀ key, key ∈ sentKeys s.visits ↔
    key ∈ s.written ∨ ∃ c ∈ s.cmds, c.recording = some key

variable {channels : UserId → Option String} {s t : MailService} {c : MailCmd} {i : Nat}

/-- What only grows. -/
structure Grows (s t : MailService) : Prop where
  published : ∀ mail ∈ s.published, mail ∈ t.published
  written : s.written <+: t.written
  now : s.now ≤ t.now

theorem Over.mono {id : Nat} {time time' : Int} (over_ : s.Over id time)
    (published : ∀ mail ∈ s.published, mail ∈ t.published) (later : time ≤ time') :
    t.Over id time' := by
  obtain ⟨mail, mem, same, ended⟩ := over_
  exact ⟨mail, published mail mem, same, ended.trans_le later⟩

theorem time_mono (later : s.now ≤ t.now) : s.time c ≤ t.time c := by
  cases here : c.pc <;> simp only [time, here, le_refl, later]

theorem Informed.mono (informed : s.Informed c) (grows : Grows s t) : t.Informed c := by
  obtain ⟨new, whole⟩ := grows.written
  refine ⟨fun mail mem => grows.published mail (informed.ahead mail mem), ?_, fun key mem own => ?_,
    fun id mem => grows.written.subset (informed.uDatas id mem), informed.chosen,
    fun mail rest here => grows.published mail (informed.noting mail rest here)⟩
  · exact informed.readAt.trans grows.written.length_le
  · rw [← whole, List.take_append_of_le_length informed.readAt] at mem
    obtain known | over_ := informed.read key mem own
    · exact .inl known
    · exact .inr (over_.mono grows.published (time_mono grows.now))

theorem CleanOk.mono {pc : CleanPc} (ok : s.CleanOk pc) (grows : Grows s t) : t.CleanOk pc := by
  cases pc with
  | delMails now | delRecords now => exact le_trans ok grows.now
  | assign datas => exact fun mail mem => grows.published mail (ok mail mem)
  | updateDatas | find | done => trivial

section Turn
variable {c' : MailCmd}

/-- A command goes on and what it sends is what it is then to note. -/
theorem inv_go {visits : List MailVisit} (inv : MailInv s) (found : s.cmds[i]? = some c)
    (idle : c.recording = none) (informed : s.Informed c')
    (sent : ∀ key, key ∈ sentKeys visits ↔ key ∈ sentKeys s.visits ∨ c'.recording = some key) :
    MailInv { s with cmds := s.cmds.set i c', visits } := by
  refine { inv with cmds := fun c'' mem => ?_, sent := fun key => ?_ }
  · obtain old | rfl := List.mem_or_eq_of_mem_set mem
    · exact (inv.cmds c'' old).mono ⟨fun _ mem => mem, List.prefix_rfl, le_rfl⟩
    · exact informed.mono ⟨fun _ mem => mem, List.prefix_rfl, le_rfl⟩
  · have set := exists_mem_set (P := fun c => c.recording = some key) (y := c') found
    have none_yet : ¬c.recording = some key := by simp [idle]
    rw [or_iff_left none_yet] at set
    rw [sent, inv.sent, or_assoc, set]

/-- The command decides about a mail that is new to it. -/
theorem due_iff {mail : GlobalMail} {v : MailVisit} {before : List MailVisit}
    (mails : v.mail = mail ∧ v.now = c.now ∧ v.regDt = c.regDt)
    (asked : mail.channelArr = [] ∨ v.channel = c.channel) (new : c.isNew mail = true) :
    v.Due before ↔ c.isSend mail = true ∧
      ∀ w ∈ before, w.sent = true → w.uId = v.uId → w.mail.id ≠ mail.id := by
  obtain ⟨rfl, now, regDt⟩ := mails
  have valid := of_decide_eq_true new
  have window : (∀ start ∈ v.mail.startRegDt, ∀ stop ∈ v.mail.endRegDt,
        ¬(c.regDt < start ∨ c.regDt ≥ stop)) ↔
      ∀ start stop, v.mail.startRegDt = some start → v.mail.endRegDt = some stop →
        start ≤ v.regDt ∧ v.regDt < stop := by
    simp only [regDt, not_or, not_lt, ge_iff_le, not_le, Option.mem_def]
    exact ⟨fun all start stop first last => all start first stop last,
      fun all start first stop last => all start stop first last⟩
  have channel : (v.mail.channelArr = [] ∨ ∃ channel ∈ c.channel, channel ∈ v.mail.channelArr) ↔
      (v.mail.channelArr = [] ∨ ∃ channel ∈ v.channel, channel ∈ v.mail.channelArr) := by
    obtain empty | same := asked
    · simp only [empty, true_or]
    · rw [same]
  rw [MailCmd.isSend, decide_eq_true_eq, window, channel]
  constructor
  · exact fun due => ⟨⟨due.channel, due.registered⟩, due.unsent⟩
  · rintro ⟨⟨fits, registered⟩, unsent⟩
    exact ⟨by rw [now]; exact valid.2, unsent, fits, registered⟩

theorem mem_sentKeys {key : UserId × Nat} {visits : List MailVisit} : key ∈ sentKeys visits ↔
    ∃ w ∈ visits, w.sent = true ∧ w.uId = key.1 ∧ w.mail.id = key.2 := by
  simp only [sentKeys, List.mem_map, List.mem_filter, and_assoc, Prod.ext_iff]

/-- A mail that is new to a command has not been sent if it has not been noted since. -/
theorem unsent_iff {mail : GlobalMail} (inv : MailInv s) (informed : s.Informed c)
    (past : s.time c = c.now) (mem : mail ∈ s.published) (new : c.isNew mail = true) :
    (∀ w ∈ s.visits, w.sent = true → w.uId = c.uId → w.mail.id ≠ mail.id) ↔
      (c.uId, mail.id) ∉ s.written.drop c.readAt ∧
      ∀ c' ∈ s.cmds, c'.recording ≠ some (c.uId, mail.id) := by
  have valid := of_decide_eq_true new
  have before : (c.uId, mail.id) ∉ s.written.take c.readAt := by
    intro noted
    obtain known | ⟨other, published, same, ended⟩ := informed.read _ noted rfl
    · exact valid.1 known
    · have one := List.inj_on_of_nodup_map inv.ids published mem same
      rw [one, past] at ended
      exact lt_asymm ended valid.2.2
  have written : (c.uId, mail.id) ∈ s.written ↔ (c.uId, mail.id) ∈ s.written.drop c.readAt := by
    conv_lhs => rw [← List.take_append_drop c.readAt s.written, List.mem_append]
    exact or_iff_right before
  calc (∀ w ∈ s.visits, w.sent = true → w.uId = c.uId → w.mail.id ≠ mail.id)
      ↔ ¬(c.uId, mail.id) ∈ sentKeys s.visits := by
        rw [mem_sentKeys]
        push Not
        rfl
    _ ↔ _ := by
        rw [inv.sent, written, not_or]
        push Not
        rfl

theorem Informed.turn {pc : MailPc} (informed : s.Informed c) (past : s.time c = c.now)
    (past' : s.time { c with pc } = c.now)
    (ahead : ∀ mail ∈ MailCmd.ahead { c with pc }, mail ∈ s.published)
    (chosen : ∀ mail rest, pc = .channel mail rest → c.isNew mail = true)
    (noting : ∀ mail rest, pc = .record mail rest → mail ∈ s.published) :
    s.Informed { c with pc } := by
  refine ⟨ahead, informed.readAt, fun key mem own => ?_, informed.uDatas, chosen, noting⟩
  rw [past', ← past]
  exact informed.read key mem own

/-- The command decides, and rightly if its reading is fresh. -/
theorem decide_step {mail : GlobalMail} {rest : List GlobalMail} (inv : MailInv s)
    (found : s.cmds[i]? = some c) (idle : c.recording = none) (informed : s.Informed c')
    (past : s.time c' = c'.now) (mem : ∀ m ∈ mail :: rest, m ∈ s.published)
    (asked : mail.channelArr = [] ∨ (c'.channel <|> channels c'.uId) = c'.channel)
    (new : c'.isNew mail = true) :
    MailInv (s.decide channels i c' mail rest) ∧
    (MailVisit.AllRight (s.decide channels i c' mail rest).visits ↔
      MailVisit.AllRight s.visits ∧ (c'.isSend mail = true →
        (c'.uId, mail.id) ∉ s.written.drop c'.readAt ∧
        ∀ c ∈ s.cmds, c.recording ≠ some (c'.uId, mail.id))) := by
  have head := mem mail List.mem_cons_self
  have tail : ∀ m ∈ rest, m ∈ s.published := fun m here => mem m (List.mem_cons_of_mem mail here)
  have due (sent : Bool) := @due_iff c' _ ⟨i, c'.uId, c'.channel <|> channels c'.uId, c'.regDt, mail,
    c'.now, sent⟩ s.visits ⟨rfl, rfl, rfl⟩ asked new
  rw [decide]
  split
  · rename_i fits
    refine ⟨?_, ?_⟩
    · refine inv_go inv found idle (informed.turn past rfl tail (fun _ _ same => by cases same)
        fun _ _ same => (MailPc.record.inj same).1 ▸ head) fun key => ?_
      simp only [mem_sentKeys, List.mem_cons, exists_eq_or_imp, true_and, MailCmd.recording,
        Option.some.injEq, Prod.ext_iff]
      exact or_comm
    · rw [visit, MailVisit.AllRight, due true, ← unsent_iff inv informed past head new, and_comm]
      refine and_congr_right fun _ => ?_
      simp only [fits, true_and, true_iff, forall_const]
  · rename_i misfits
    refine ⟨?_, ?_⟩
    · refine inv_go inv found idle (informed.turn past rfl tail (fun _ _ same => by cases same)
        fun _ _ same => by cases same) fun key => ?_
      simp [mem_sentKeys, MailCmd.recording]
    · rw [visit, MailVisit.AllRight, due false, and_comm]
      refine and_congr_right fun _ => ?_
      simp [misfits]

/-- A command reads what its user has been sent. -/
theorem informed_find (inv : MailInv s) : s.Informed { c with
    uDatas := (s.records.filter (·.id = c.uId)).map (·.mailGid), readAt := s.written.length
    pc := .found } := by
  refine ⟨fun _ mem => absurd mem List.not_mem_nil, le_rfl, fun key mem own => ?_, fun id mem => ?_,
    fun _ _ same => (nomatch same), fun _ _ same => nomatch same⟩
  · rw [List.take_length] at mem
    obtain ⟨r, row, rfl⟩ | over_ := inv.noted key mem
    · exact .inl (List.mem_map_of_mem (List.mem_filter.mpr ⟨row, decide_eq_true own⟩))
    · exact .inr over_
  · obtain ⟨r, row, rfl⟩ := List.mem_map.mp mem
    obtain ⟨row, own⟩ := List.mem_filter.mp row
    exact of_decide_eq_true own ▸ (inv.records r row).2

/-- A mail that is not new to a command is not due. -/
theorem not_due {mail : GlobalMail} {v : MailVisit} (inv : MailInv s) (informed : s.Informed c)
    (about : v.mail = mail ∧ v.now = c.now ∧ v.uId = c.uId) (old : ¬c.isNew mail = true) :
    ¬v.Due s.visits := by
  obtain ⟨rfl, now, own⟩ := about
  intro due
  have known : v.mail.id ∈ c.uDatas := by
    by_contra unknown
    exact old (decide_eq_true ⟨unknown, now ▸ due.valid⟩)
  have sent := (inv.sent _).mpr (.inl (informed.uDatas _ known))
  obtain ⟨w, mem, sent, user, same⟩ := mem_sentKeys.mp sent
  exact due.unsent w mem sent (user.trans own.symm) same

/-- A command notes what it has sent. -/
theorem inv_record {mail : GlobalMail} {rest : List GlobalMail} (inv : MailInv s)
    (found : s.cmds[i]? = some c) (here : c.pc = .record mail rest) :
    MailInv { s.setCmd i c (.next rest) with
      records := s.records ++ [⟨c.uId, mail.id, mail.endDt⟩]
      written := s.written ++ [(c.uId, mail.id)] } := by
  have informed := inv.cmds c (List.mem_of_getElem? found)
  have published := informed.noting mail rest here
  have past : s.time c = c.now := by simp only [time, here]
  have ahead : ∀ m ∈ rest, m ∈ s.published := by
    simpa only [MailCmd.ahead, here] using informed.ahead
  have passed : s.Informed { c with pc := .next rest } := informed.turn past rfl ahead
    (fun _ _ same => (nomatch same)) fun _ _ same => nomatch same
  refine ⟨inv.ids, inv.mails, inv.datas, inv.cleanups, fun c' mem => ?_, fun r mem => ?_,
    fun key mem => ?_, fun key => ?_⟩
  · obtain old | rfl := List.mem_or_eq_of_mem_set mem
    · exact (inv.cmds c' old).mono ⟨fun _ mem => mem, List.prefix_append _ _, le_rfl⟩
    · exact passed.mono ⟨fun _ mem => mem, List.prefix_append _ _, le_rfl⟩
  · obtain old | new := List.mem_append.mp mem
    · exact ⟨(inv.records r old).1, List.mem_append_left _ (inv.records r old).2⟩
    · obtain rfl := List.mem_singleton.mp new
      exact ⟨⟨mail, published, rfl, rfl⟩, List.mem_append_right _ List.mem_cons_self⟩
  · obtain old | new := List.mem_append.mp mem
    · obtain ⟨r, row, same⟩ | over_ := inv.noted key old
      · exact .inl ⟨r, List.mem_append_left _ row, same⟩
      · exact .inr over_
    · obtain rfl := List.mem_singleton.mp new
      exact .inl ⟨_, List.mem_append_right _ List.mem_cons_self, rfl⟩
  · have set := exists_mem_set (P := fun c => c.recording = some key)
      (y := { c with pc := .next rest }) found
    have was : c.recording = some key ↔ key = (c.uId, mail.id) := by
      simp only [MailCmd.recording, here, Option.some.injEq, eq_comm]
    have is_none : ¬MailCmd.recording { c with pc := .next rest } = some key := by
      simp [MailCmd.recording]
    rw [or_iff_left is_none, was] at set
    refine (inv.sent key).trans ?_
    rw [← set, or_comm (b := key = _), ← or_assoc, ← List.mem_singleton, ← List.mem_append]
    rfl

/-- A command goes on: nothing is wrong with what it decides, unless it sends what was sent meanwhile. -/
theorem resume_step (inv : MailInv s) (found : s.cmds[i]? = some c)
    (moved : s.resume channels i c = some t) :
    MailInv t ∧ (MailVisit.AllRight t.visits ↔
      MailVisit.AllRight s.visits ∧ Fresh channels s (.resume i)) := by
  have informed := inv.cmds c (List.mem_of_getElem? found)
  have fresh : Fresh channels s (.resume i) ↔ ∀ mail ∈ c.sends channels,
      (c.uId, mail.id) ∉ s.written.drop c.readAt ∧
      ∀ c' ∈ s.cmds, c'.recording ≠ some (c.uId, mail.id) := by
    simp only [Fresh, found, Option.mem_def, Option.some.injEq, forall_eq']
  rw [fresh]
  rw [resume] at moved
  have kept : ∀ key, key ∈ sentKeys s.visits ↔ key ∈ sentKeys s.visits ∨ (none : Option _) = some key :=
    fun key => by simp
  cases here : c.pc with
  | find =>
      rw [here] at moved
      obtain rfl := Option.some.inj moved
      have idle : c.recording = none := by simp only [MailCmd.recording, here]
      refine ⟨inv_go inv found idle (informed_find inv) kept, ?_⟩
      simp [setCmd, MailCmd.sends, here]
  | found =>
      rw [here] at moved
      obtain rfl := Option.some.inj moved
      have idle : c.recording = none := by simp only [MailCmd.recording, here]
      have now : s.time c = s.now := by simp only [time, here]
      have going : s.Informed { c with
          now := s.now, datas := s.mailGlobalDatas, pc := .next s.mailGlobalDatas } := by
        refine ⟨inv.datas, informed.readAt, fun key mem own => ?_, informed.uDatas,
          fun _ _ same => (nomatch same), fun _ _ same => nomatch same⟩
        exact now ▸ informed.read key mem own
      refine ⟨inv_go inv found idle going kept, ?_⟩
      simp [setCmd, MailCmd.sends, here]
  | next rest =>
      have idle : c.recording = none := by simp only [MailCmd.recording, here]
      have past : s.time c = c.now := by simp only [time, here]
      have ahead : ∀ mail ∈ rest, mail ∈ s.published := by
        simpa only [MailCmd.ahead, here] using informed.ahead
      cases rest with
      | nil =>
          rw [here] at moved
          obtain rfl := Option.some.inj moved
          have ended : s.Informed { c with pc := .done } := informed.turn past rfl
            (fun _ mem => absurd mem List.not_mem_nil) (fun _ _ same => by cases same)
            fun _ _ same => nomatch same
          refine ⟨inv_go inv found idle ended kept, ?_⟩
          simp [setCmd, MailCmd.sends, here]
      | cons mail rest =>
          simp only [here] at moved
          split at moved
          · rename_i new
            split at moved
            · rename_i needs
              obtain rfl := Option.some.inj moved
              have asks : s.Informed { c with pc := .channel mail rest } :=
                informed.turn past rfl ahead (fun _ _ same => (MailPc.channel.inj same).1 ▸ new)
                  fun _ _ same => nomatch same
              refine ⟨inv_go inv found idle asks kept, ?_⟩
              simp [setCmd, MailCmd.sends, here, needs]
            · rename_i known
              obtain rfl := Option.some.inj moved
              have asked : mail.channelArr = [] ∨ (c.channel <|> channels c.uId) = c.channel := by
                cases given : c.channel with
                | some channel => exact .inr rfl
                | none =>
                    refine .inl (not_not.mp fun some_arr => known ?_)
                    exact decide_eq_true ⟨some_arr, given⟩
              obtain ⟨inv', right⟩ := decide_step inv found idle informed past ahead asked new
              refine ⟨inv', right.trans (and_congr_right fun _ => ?_)⟩
              simp [MailCmd.sends, here, new, known]
          · rename_i old
            obtain rfl := Option.some.inj moved
            have passed : s.Informed { c with pc := .next rest } := informed.turn past rfl
              (fun mail' mem => ahead mail' (List.mem_cons_of_mem mail mem))
              (fun _ _ same => (nomatch same)) fun _ _ same => nomatch same
            refine ⟨inv_go inv found idle passed fun key => ?_, ?_⟩
            · simp [mem_sentKeys, MailCmd.recording]
            · have undue := not_due inv informed (v := ⟨i, c.uId, c.channel <|> channels c.uId,
                c.regDt, mail, c.now, false⟩) ⟨rfl, rfl, rfl⟩ old
              have none_sent : c.sends channels = none := by simp [MailCmd.sends, here, old]
              rw [none_sent, visit, MailVisit.AllRight, and_comm]
              refine and_congr_right fun _ => iff_of_true ?_ fun _ mem => nomatch mem
              exact iff_of_false Bool.false_ne_true undue
  | channel mail rest =>
      rw [here] at moved
      obtain rfl := Option.some.inj moved
      have idle : c.recording = none := by simp only [MailCmd.recording, here]
      have past : s.time c = c.now := by simp only [time, here]
      have ahead : ∀ m ∈ mail :: rest, m ∈ s.published := by
        simpa only [MailCmd.ahead, here] using informed.ahead
      have told : s.Informed { c with channel := channels c.uId } := ⟨informed.ahead, informed.readAt,
        informed.read, informed.uDatas, informed.chosen, informed.noting⟩
      have asked : mail.channelArr = [] ∨
          (channels c.uId <|> channels c.uId) = channels c.uId := by
        cases channels c.uId <;> exact .inr rfl
      obtain ⟨inv', right⟩ := decide_step inv found idle told past ahead asked
        (informed.chosen mail rest here)
      refine ⟨inv', right.trans (and_congr_right fun _ => ?_)⟩
      simp [MailCmd.sends, here]
  | record mail rest =>
      rw [here] at moved
      obtain rfl := Option.some.inj moved
      refine ⟨inv_record inv found here, ?_⟩
      simp [setCmd, MailCmd.sends, here]
  | done =>
      rw [here] at moved
      cases moved

end Turn

theorem inv_start_cmd {uId : UserId} {channel : Option String} {regDt : Int} (inv : MailInv s) :
    MailInv (s.ComputeMailGlobal uId channel regDt) := by
  have idle : ∀ pc, pc = .done ∨ pc = .find →
      s.Informed ⟨uId, channel, regDt, [], s.now, [], 0, pc⟩ ∧
      MailCmd.recording ⟨uId, channel, regDt, [], s.now, [], 0, pc⟩ = none := by
    rintro pc (rfl | rfl)
    all_goals exact ⟨⟨fun _ mem => absurd mem List.not_mem_nil, Nat.zero_le _,
      fun _ mem => absurd mem List.not_mem_nil, fun _ mem => absurd mem List.not_mem_nil,
      fun _ _ same => (nomatch same), fun _ _ same => nomatch same⟩, rfl⟩
  have first : (if s.mailGlobalDatas = [] then MailPc.done else .find) = .done ∨
      (if s.mailGlobalDatas = [] then MailPc.done else .find) = .find := by
    split
    · exact .inl rfl
    · exact .inr rfl
  obtain ⟨informed, none_yet⟩ := idle _ first
  refine { inv with cmds := fun c mem => ?_, sent := fun key => ?_ }
  · obtain old | new := List.mem_append.mp mem
    · exact (inv.cmds c old).mono ⟨fun _ mem => mem, List.prefix_rfl, le_rfl⟩
    · obtain rfl := List.mem_singleton.mp new
      exact informed.mono ⟨fun _ mem => mem, List.prefix_rfl, le_rfl⟩
  · refine (inv.sent key).trans (or_congr_right ?_)
    simp [ComputeMailGlobal, or_and_right, exists_or, none_yet]

/-- What goes on around the commands keeps the invariant. -/
theorem inv_grows (inv : MailInv s) (grows : Grows s t) (ids : (t.published.map (·.id)).Nodup)
    (mails : ∀ mail ∈ t.mails, mail ∈ t.published)
    (datas : ∀ mail ∈ t.mailGlobalDatas, mail ∈ t.published)
    (cleanups : ∀ pc ∈ t.cleanups, t.CleanOk pc) (records : ∀ r ∈ t.records, r ∈ s.records)
    (deleted : ∀ r ∈ s.records, r ∈ t.records ∨ t.Over r.mailGid t.now)
    (cmds : t.cmds = s.cmds) (written : t.written = s.written) (visits : t.visits = s.visits) :
    MailInv t := by
  refine ⟨ids, mails, datas, cleanups, fun c mem => ?_, fun r mem => ?_, fun key mem => ?_,
    fun key => ?_⟩
  · exact (inv.cmds c (cmds ▸ mem)).mono grows
  · obtain ⟨⟨mail, published, same⟩, noted⟩ := inv.records r (records r mem)
    exact ⟨⟨mail, grows.published mail published, same⟩, written ▸ noted⟩
  · obtain ⟨r, row, rfl⟩ | over_ := inv.noted key (written ▸ mem)
    · exact (deleted r row).imp_left fun kept => ⟨r, kept, rfl⟩
    · exact .inr (over_.mono grows.published grows.now)
  · rw [visits, written, cmds]
    exact inv.sent key

/-- A clean-up goes on: what it deletes is over. -/
theorem inv_clean {k : Nat} {pc : CleanPc} (inv : MailInv s) (found : s.cleanups[k]? = some pc)
    (moved : s.clean k pc = some t) : MailInv t := by
  have ok := inv.cleanups pc (List.mem_of_getElem? found)
  have grows (mails datas records cleanups) : Grows s { s with
      mails, mailGlobalDatas := datas, records, cleanups } :=
    ⟨fun _ mem => mem, List.prefix_rfl, le_rfl⟩
  have set (mails datas records) (pc' : CleanPc) (ok' : s.CleanOk pc') :
      ∀ pc'' ∈ s.cleanups.set k pc', CleanOk { s with
        mails, mailGlobalDatas := datas, records, cleanups := s.cleanups.set k pc' } pc'' := by
    intro pc'' mem
    obtain old | rfl := List.mem_or_eq_of_mem_set mem
    · exact (inv.cleanups pc'' old).mono (grows _ _ _ _)
    · exact ok'.mono (grows _ _ _ _)
  cases pc with
  | delMails now =>
      obtain rfl := Option.some.inj moved
      exact inv_grows inv (grows _ _ _ _) inv.ids
        (fun mail mem => inv.mails mail (List.mem_of_mem_filter mem)) inv.datas
        (set _ _ _ (.delRecords now) ok) (fun _ row => row) (fun _ row => .inl row) rfl rfl rfl
  | delRecords now =>
      obtain rfl := Option.some.inj moved
      refine inv_grows inv (grows _ _ _ _) inv.ids inv.mails inv.datas
        (set _ _ _ .updateDatas trivial) (fun _ row => List.mem_of_mem_filter row)
        (fun r row => ?_) rfl rfl rfl
      by_cases ended : r.endDt < now
      · obtain ⟨mail, published, id, endDt⟩ := (inv.records r row).1
        exact .inr ⟨mail, published, id, (endDt.trans_lt ended).trans_le ok⟩
      · exact .inl (List.mem_filter.mpr ⟨row, decide_eq_true ended⟩)
  | updateDatas =>
      obtain rfl := Option.some.inj moved
      exact inv_grows inv (grows _ _ _ _) inv.ids inv.mails inv.datas
        (set _ _ _ (.find s.now) trivial) (fun _ row => row) (fun _ row => .inl row) rfl rfl rfl
  | find now =>
      obtain rfl := Option.some.inj moved
      have read : s.CleanOk (.assign (s.mails.filter fun m => m.startDt ≤ now ∧ m.endDt > now)) :=
        fun mail mem => inv.mails mail (List.mem_of_mem_filter mem)
      exact inv_grows inv (grows _ _ _ _) inv.ids inv.mails inv.datas (set _ _ _ _ read)
        (fun _ row => row) (fun _ row => .inl row) rfl rfl rfl
  | assign datas =>
      obtain rfl := Option.some.inj moved
      exact inv_grows inv (grows _ _ _ _) inv.ids inv.mails ok (set _ _ _ .done trivial)
        (fun _ row => row) (fun _ row => .inl row) rfl rfl rfl
  | done => cases moved

theorem clean_frame {k : Nat} {pc : CleanPc} (moved : s.clean k pc = some t) :
    t.cmds = s.cmds ∧ t.visits = s.visits := by
  cases pc with
  | done => cases moved
  | _ =>
      obtain rfl := Option.some.inj moved
      exact ⟨rfl, rfl⟩

theorem mail_step {e : MailStep} (inv : MailInv s) (moved : s.step channels e = some t) :
    MailInv t ∧ (MailVisit.AllRight t.visits ↔ MailVisit.AllRight s.visits ∧ Fresh channels s e) := by
  cases e with
  | ComputeMailGlobal uId channel regDt =>
      obtain rfl := Option.some.inj moved
      exact ⟨inv_start_cmd inv, (and_iff_left trivial).symm⟩
  | resume i =>
      obtain ⟨c, found, moved⟩ := Option.bind_eq_some_iff.mp moved
      exact resume_step inv found moved
  | timer =>
      obtain rfl := Option.some.inj moved
      have grows : Grows s { s with cleanups := s.cleanups ++ [.delMails s.now] } :=
        ⟨fun _ mem => mem, List.prefix_rfl, le_rfl⟩
      refine ⟨inv_grows inv grows inv.ids inv.mails inv.datas ?_ (fun _ row => row)
        (fun _ row => .inl row) rfl rfl rfl, (and_iff_left trivial).symm⟩
      exact List.forall_mem_append.mpr ⟨fun pc mem => (inv.cleanups pc mem).mono grows,
        List.forall_mem_singleton.mpr le_rfl⟩
  | clean k =>
      obtain ⟨pc, found, moved⟩ := Option.bind_eq_some_iff.mp moved
      rw [(clean_frame moved).2]
      exact ⟨inv_clean inv found moved, (and_iff_left trivial).symm⟩
  | publish mail =>
      rw [step] at moved
      split at moved
      · cases moved
      · rename_i new
        obtain rfl := Option.some.inj moved
        have grows : Grows s { s with
            mails := s.mails ++ [mail], published := s.published ++ [mail] } :=
          ⟨fun _ mem => List.mem_append_left _ mem, List.prefix_rfl, le_rfl⟩
        refine ⟨inv_grows inv grows ?_ ?_
          (fun m mem => List.mem_append_left _ (inv.datas m mem))
          (fun pc mem => (inv.cleanups pc mem).mono grows) (fun _ row => row) (fun _ row => .inl row)
          rfl rfl rfl, (and_iff_left trivial).symm⟩
        · exact Table.nodup_map_snoc.mpr ⟨new, inv.ids⟩
        · exact List.forall_mem_append.mpr ⟨fun m mem => List.mem_append_left _ (inv.mails m mem),
            List.forall_mem_singleton.mpr (List.mem_append_right _ List.mem_cons_self)⟩
  | tick dt =>
      obtain rfl := Option.some.inj moved
      have grows : Grows s { s with now := s.now + dt } := ⟨fun _ mem => mem, List.prefix_rfl, by simp⟩
      exact ⟨inv_grows inv grows inv.ids inv.mails inv.datas
        (fun pc mem => (inv.cleanups pc mem).mono grows) (fun _ row => row) (fun _ row => .inl row)
        rfl rfl rfl, (and_iff_left trivial).symm⟩

/-- A command has still to go through its mails or has gone through them. -/
def Seen (i : Nat) (c : MailCmd) (visits : List MailVisit) : Prop :=
  ∀ mail ∈ c.datas, mail ∈ c.ahead ∨
    ∃ v ∈ visits, v.command = i ∧ v.uId = c.uId ∧ v.mail = mail ∧ v.now = c.now

def AllSeen (s : MailService) : Prop := ∀ (i : Nat) c, s.cmds[i]? = some c → Seen i c s.visits

theorem Seen.mono {visits visits' : List MailVisit} (seen : Seen i c visits)
    (more : ∀ v ∈ visits, v ∈ visits') : Seen i c visits' :=
  fun mail mem => (seen mail mem).imp_right fun ⟨v, mem, about⟩ => ⟨v, more v mem, about⟩

theorem allSeen_set {c' : MailCmd} {visits : List MailVisit} (all : AllSeen s)
    (found : s.cmds[i]? = some c) (more : ∀ v ∈ s.visits, v ∈ visits) (seen : Seen i c' visits) :
    AllSeen { s with cmds := s.cmds.set i c', visits } := by
  intro k c'' here
  have inside : i < s.cmds.length := (List.getElem?_eq_some_iff.mp found).1
  by_cases same : i = k
  · subst same
    rw [List.getElem?_set_self inside] at here
    exact Option.some.inj here ▸ seen
  · rw [List.getElem?_set_ne same] at here
    exact (all k c'' here).mono more

/-- A mail that is gone through is one less that is ahead. -/
theorem Seen.visit {mail : GlobalMail} {rest : List GlobalMail} {sent : Bool} {pc : MailPc}
    (seen : Seen i c s.visits) (ahead : c.ahead = mail :: rest)
    (later : MailCmd.ahead { c with pc } = rest) :
    Seen i { c with pc } (s.visit channels i c mail sent pc).visits := by
  intro mail' mem
  obtain here | ⟨v, mem, about⟩ := seen mail' mem
  · rw [ahead] at here
    obtain rfl | here := List.mem_cons.mp here
    · exact .inr ⟨_, List.mem_cons_self, rfl, rfl, rfl, rfl⟩
    · exact .inl (later ▸ here)
  · exact .inr ⟨v, List.mem_cons_of_mem _ mem, about⟩

theorem allSeen_decide {c' : MailCmd} {mail : GlobalMail} {rest : List GlobalMail} (all : AllSeen s)
    (found : s.cmds[i]? = some c) (seen : Seen i c' s.visits) (ahead : c'.ahead = mail :: rest) :
    AllSeen (s.decide channels i c' mail rest) := by
  rw [decide]
  split
  · exact allSeen_set all found (fun _ mem => List.mem_cons_of_mem _ mem) (seen.visit ahead rfl)
  · exact allSeen_set all found (fun _ mem => List.mem_cons_of_mem _ mem) (seen.visit ahead rfl)

theorem allSeen_resume (all : AllSeen s) (found : s.cmds[i]? = some c)
    (moved : s.resume channels i c = some t) : AllSeen t := by
  have seen := all i c found
  rw [resume] at moved
  cases here : c.pc with
  | find =>
      rw [here] at moved
      obtain rfl := Option.some.inj moved
      refine allSeen_set all found (fun _ mem => mem) fun mail mem => .inr ?_
      exact (seen mail mem).resolve_left (by simp [MailCmd.ahead, here])
  | found =>
      rw [here] at moved
      obtain rfl := Option.some.inj moved
      exact allSeen_set all found (fun _ mem => mem) fun mail mem => .inl mem
  | next rest =>
      have ahead : c.ahead = rest := by simp only [MailCmd.ahead, here]
      cases rest with
      | nil =>
          rw [here] at moved
          obtain rfl := Option.some.inj moved
          refine allSeen_set all found (fun _ mem => mem) fun mail mem => .inr ?_
          exact (seen mail mem).resolve_left (by simp [ahead])
      | cons mail rest =>
          simp only [here] at moved
          split at moved
          · split at moved
            · obtain rfl := Option.some.inj moved
              refine allSeen_set all found (fun _ mem => mem) fun mail' mem => ?_
              exact (seen mail' mem).imp_left fun mem => by
                rw [ahead] at mem
                exact mem
            · obtain rfl := Option.some.inj moved
              exact allSeen_decide all found seen ahead
          · obtain rfl := Option.some.inj moved
            exact allSeen_set all found (fun _ mem => List.mem_cons_of_mem _ mem)
              (seen.visit ahead rfl)
  | channel mail rest =>
      rw [here] at moved
      obtain rfl := Option.some.inj moved
      have ahead : c.ahead = mail :: rest := by simp only [MailCmd.ahead, here]
      have asked : s.cmds[i]? = some c := found
      exact @allSeen_decide _ _ _ _ { c with channel := channels c.uId } _ _ all asked seen ahead
  | record mail rest =>
      rw [here] at moved
      obtain rfl := Option.some.inj moved
      have ahead : c.ahead = rest := by simp only [MailCmd.ahead, here]
      refine allSeen_set all found (fun _ mem => mem) fun mail' mem => ?_
      exact (seen mail' mem).imp_left fun mem => by
        rw [ahead] at mem
        exact mem
  | done =>
      rw [here] at moved
      cases moved

theorem allSeen_step {e : MailStep} (all : AllSeen s) (moved : s.step channels e = some t) :
    AllSeen t := by
  cases e with
  | ComputeMailGlobal uId channel regDt =>
      obtain rfl := Option.some.inj moved
      intro k c here
      obtain old | ⟨_, rfl⟩ := concat_cases here
      · exact all k c old
      · exact fun _ mem => absurd mem List.not_mem_nil
  | resume i =>
      obtain ⟨c, found, moved⟩ := Option.bind_eq_some_iff.mp moved
      exact allSeen_resume all found moved
  | timer | tick dt =>
      obtain rfl := Option.some.inj moved
      exact all
  | clean k =>
      obtain ⟨pc, _, moved⟩ := Option.bind_eq_some_iff.mp moved
      obtain ⟨cmds, visits⟩ := clean_frame moved
      rw [AllSeen, cmds, visits]
      exact all
  | publish mail =>
      rw [step] at moved
      split at moved
      · cases moved
      · obtain rfl := Option.some.inj moved
        exact all

/-- No mail is sent twice to a user where all decisions are right. -/
theorem sentKeys_nodup {visits : List MailVisit} (right : MailVisit.AllRight visits) :
    (sentKeys visits).Nodup := by
  induction visits with
  | nil => exact .nil
  | cons v before ih =>
      obtain ⟨decided, right⟩ := right
      cases sent : v.sent with
      | false =>
          rw [sentKeys, List.filter_cons_of_neg (by simp [sent])]
          exact ih right
      | true =>
          rw [sentKeys, List.filter_cons_of_pos sent, List.map_cons, List.nodup_cons]
          refine ⟨fun mem => ?_, ih right⟩
          obtain ⟨w, mem, sent', user, same⟩ := mem_sentKeys.mp mem
          exact (decided.mp sent).unsent w mem sent' user same

theorem inv_start (now : Int) : MailInv (start now) := by
  have none_yet : ∀ key, key ∈ sentKeys [] ↔
      key ∈ ([] : List (UserId × Nat)) ∨ ∃ c ∈ ([] : List MailCmd), c.recording = some key := by
    simp [sentKeys]
  exact ⟨.nil, fun _ mem => absurd mem List.not_mem_nil, fun _ mem => absurd mem List.not_mem_nil,
    fun _ mem => absurd mem List.not_mem_nil, fun _ mem => absurd mem List.not_mem_nil,
    fun _ mem => absurd mem List.not_mem_nil, fun _ mem => absurd mem List.not_mem_nil, none_yet⟩

section Runs
variable {now : Int} {es : List MailStep} {ok : MailService → MailStep → Prop}

theorem run_mailInv (run : Run (step channels) ok (start now) es s) : MailInv s := by
  apply run.invariant MailInv (inv_start now)
  intro t e u inv _ moved
  exact (mail_step inv moved).1

theorem run_allSeen (run : Run (step channels) ok (start now) es s) : AllSeen s := by
  have none_yet : AllSeen (start now) := by
    intro i c found
    cases found
  apply run.invariant AllSeen none_yet
  intro t e u all _ moved
  exact allSeen_step all moved

/-- A command that has come to its end has decided about every mail of the list it went through. All
decisions are right, and no user is sent a mail twice, as long as no mail is sent that was noted since
the command read, or has been sent and is still to be noted. -/
theorem run_globalMails (run : Run (step channels) anyStep (start now) es s) :
    (Run (step channels) (Fresh channels) (start now) es s ↔
      MailVisit.AllRight s.visits ∧ (sentKeys s.visits).Nodup) ∧
    ∀ (i : Nat) c, s.cmds[i]? = some c → c.pc = .done → ∀ mail ∈ c.datas,
      ∃ v ∈ s.visits, v.command = i ∧ v.uId = c.uId ∧ v.mail = mail ∧ v.now = c.now := by
  constructor
  · have right : Run (step channels) (Fresh channels) (start now) es s ↔
        MailVisit.AllRight s.visits := by
      have nothing : MailVisit.AllRight (start now).visits := trivial
      apply run.holds_iff (fun s => MailVisit.AllRight s.visits) nothing
      intro front t e u before _ moved
      exact (mail_step (run_mailInv before) moved).2
    rw [right]
    exact (and_iff_left_of_imp sentKeys_nodup).symm
  · intro i c found ended mail mem
    refine (run_allSeen run i c found mail mem).resolve_left fun ahead => ?_
    rw [MailCmd.ahead, ended] at ahead
    exact absurd ahead List.not_mem_nil

instance decFreshMail : ∀ (s : MailService) e, Decidable (Fresh channels s e)
  | s, .resume i => inferInstanceAs (Decidable (∀ c ∈ s.cmds[i]?, ∀ mail ∈ c.sends channels,
      _ ∉ _ ∧ ∀ c' ∈ s.cmds, c'.recording ≠ _))
  | _, .ComputeMailGlobal _ _ _ | _, .timer | _, .clean _ | _, .publish _ | _, .tick _ =>
      .isTrue trivial

/-- A mail for one channel, loaded into the list. -/
def loaded : List MailStep :=
  [.publish ⟨7, 0, 100, ["huawei"], none, none⟩, .timer, .clean 0, .clean 0, .clean 0, .clean 0,
    .clean 0]

/-- A user of that channel comes twice, the second time after the mail has been noted. -/
def twice : List MailStep :=
  loaded ++ [.ComputeMailGlobal 1 none 0, .resume 0, .resume 0, .resume 0, .resume 0, .resume 0,
    .resume 0, .ComputeMailGlobal 1 (some "huawei") 0, .resume 1, .resume 1, .resume 1, .resume 1]

theorem run_globalMails_twice : ∃ s, Run (step fun _ => some "huawei") (Fresh fun _ => some "huawei")
    (start 0) twice s ∧ (MailVisit.AllRight s.visits ∧ (sentKeys s.visits).Nodup) ∧
    s.visits.map (·.sent) = [false, true] := by
  obtain ⟨s, run, sent⟩ := run_of_guarded_any (step fun _ => some "huawei")
    (Fresh fun _ => some "huawei") (start 0) twice
    (fun s => s.visits.map (·.sent) = [false, true]) (by decide +kernel)
  exact ⟨s, run, (run_globalMails (run.mono fun _ _ _ => trivial)).1.mp run, sent⟩

/-- The user comes again while the first command waits for the mail service. -/
def quickly : List MailStep :=
  loaded ++ [.ComputeMailGlobal 1 (some "huawei") 0, .resume 0, .resume 0, .resume 0,
    .ComputeMailGlobal 1 (some "huawei") 0, .resume 1, .resume 1, .resume 1]

/-- The mail is sent to him twice. -/
theorem globalMails_fail : ¬∀ (channels : UserId → Option String) (now : Int) (es : List MailStep)
    (s : MailService), Run (step channels) anyStep (start now) es s →
    MailVisit.AllRight s.visits ∧ (sentKeys s.visits).Nodup := by
  intro all
  obtain ⟨s, run, doubled⟩ := run_of_exec_any (step fun _ => none) (start 0) quickly
    (fun s => sentKeys s.visits = [(1, 7), (1, 7)]) (by decide +kernel)
  have single := (all _ 0 _ s run).2
  rw [doubled] at single
  exact absurd single (by decide)

end Runs

end MailService

end HuluLandlord.Services
