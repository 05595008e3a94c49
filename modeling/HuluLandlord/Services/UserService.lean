import HuluLandlord.Define
import HuluLandlord.Table
import HuluLandlord.Transition
import Mathlib.Logic.Function.Basic

/-!
The likes and the gifts that users and robots get. A command runs from one call of the database, or of the
robots' manager, to the next, and other commands run between. Users are kept in one table and robots in another.
-/
namespace HuluLandlord.Services
open Transition Table

abbrev GiftId := Nat

abbrev GiftData := GiftId → Option Int

/-- The rows of `ServerRobot` are looked up by their robot. -/
structure ServerRobotRow where
  like : Option Nat
  versionsKey : Option Nat
  deriving DecidableEq, Repr

/-- A row of `UserGiftRecord`; nothing keeps a user from having two. -/
structure GiftRecordRow where
  id : UserId
  data : GiftData

structure LikeObj where
  like : Nat
  isRobot : Bool
  deriving DecidableEq, Repr

/-- The robots that there are, those with ids of the old form among them. -/
structure RobotConfig where
  robotMapDatas : UserId → Bool
  versionsKey : Nat

inductive GiveCmd
  | UserLike (id : UserId)
  | UserGiftSend (uId : UserId) (sId : GiftId) (num : Int)
  deriving DecidableEq, Repr

def GiveCmd.target : GiveCmd → UserId
  | .UserLike id | .UserGiftSend id _ _ => id

/-- The call that a command waits for, or how it ended: with a reply or with an error. `getRobot` and
`addRobot` are calls of the robots' manager, made for `getRobotInfo`. -/
inductive GivePc
  | getUser
  | getRobotInfo
  | getRobot
  | addRobot (like : Nat)
  | updateLike (obj : LikeObj)
  | getGift
  | addGift
  | updateGift (sId : GiftId) (currentNum : Int)
  | liked (like : Nat)
  | notFound
  | sent (currentNum : Int)
  | raised
  deriving DecidableEq, Repr

structure GiveProc where
  cmd : GiveCmd
  pc : GivePc
  deriving DecidableEq, Repr

/-- The tables, the cache of the robots' manager, the caches of the service, and the commands. The row of a
user has a count when somebody has liked him. -/
structure UserService where
  users : UserId → Option (Option Nat)
  robots : UserId → Option ServerRobotRow
  gifts : List GiftRecordRow
  robotDatas : UserId → Option Nat
  likeObj : UserId → Option LikeObj
  giftObj : UserId → Option GiftData
  procs : List GiveProc

inductive GiveEvent
  | send (cmd : GiveCmd)
  | resume (i : Nat)
  deriving DecidableEq, Repr

namespace UserService

def goto (s : UserService) (i : Nat) (p : GiveProc) (pc : GivePc) : UserService :=
  { s with procs := s.procs.set i { p with pc } }

/-- The table that `UserLike` writes to. -/
def updateLike (s : UserService) (id : UserId) (obj : LikeObj) : UserService :=
  if obj.isRobot then
    { s with users := Function.update s.users id ((s.users id).map fun _ => some obj.like) }
  else
    { s with robots := Function.update s.robots id ((s.robots id).map fun row => ⟨some obj.like, row.versionsKey⟩) }

/-- The first row of the user is written, if there is one. -/
def updateGift (uId : UserId) (sId : GiftId) (currentNum : Int) : List GiftRecordRow → List GiftRecordRow
  | [] => []
  | row :: rows =>
      if row.id = uId then { row with data := Function.update row.data sId (some currentNum) } :: rows
      else row :: updateGift uId sId currentNum rows

/-- A command starts; what it finds in a cache it changes there. -/
def send (s : UserService) (cmd : GiveCmd) : UserService :=
  match cmd with
  | .UserLike id =>
      match s.likeObj id with
      | some obj =>
          let obj := { obj with like := obj.like + 1 }
          { s with likeObj := Function.update s.likeObj id (some obj), procs := s.procs ++ [⟨cmd, .updateLike obj⟩] }
      | none => { s with procs := s.procs ++ [⟨cmd, .getUser⟩] }
  | .UserGiftSend uId sId num =>
      match s.giftObj uId with
      | some data =>
          let currentNum := (data sId).getD 0 + num
          { s with
            giftObj := Function.update s.giftObj uId (some (Function.update data sId (some currentNum)))
            procs := s.procs ++ [⟨cmd, .updateGift sId currentNum⟩] }
      | none => { s with procs := s.procs ++ [⟨cmd, .getGift⟩] }

def robotLike (s : UserService) (id : UserId) : Nat := ((s.robots id).bind (·.like)).getD 0

/-- What `getUserLike` has found is counted up; it is not put into the cache. -/
def found (like : Nat) (isRobot : Bool) : GivePc := .updateLike ⟨like + 1, isRobot⟩

/-- A command goes on from the call it waits for. `GetUserGiftDatas` returns what it had before it filled the
cache, so the command then fails. -/
def resume (cfg : RobotConfig) (s : UserService) (i : Nat) (p : GiveProc) : Option UserService :=
  match p.pc with
  | .getUser =>
      match s.users p.cmd.target with
      | some like => some (s.goto i p (found (like.getD 0) false))
      | none => some (s.goto i p .getRobotInfo)
  | .getRobotInfo =>
      match s.robotDatas p.cmd.target with
      | some like => some (s.goto i p (found like true))
      | none => some (s.goto i p (if cfg.robotMapDatas p.cmd.target then .getRobot else .notFound))
  | .getRobot =>
      let like := s.robotLike p.cmd.target
      if (s.robots p.cmd.target).bind (·.versionsKey) = some cfg.versionsKey then
        some ({ s with robotDatas := Function.update s.robotDatas p.cmd.target (some like) }.goto i p (found like true))
      else some (s.goto i p (.addRobot like))
  | .addRobot like =>
      some ({ s with
        robots := Function.update s.robots p.cmd.target (some (ServerRobotRow.mk (some like) (some cfg.versionsKey)))
        robotDatas := Function.update s.robotDatas p.cmd.target (some like) }.goto i p (found like true))
  | .updateLike obj => some ((s.updateLike p.cmd.target obj).goto i p (.liked obj.like))
  | .getGift =>
      match s.gifts.find? (·.id = p.cmd.target) with
      | some row => some ({ s with giftObj := Function.update s.giftObj p.cmd.target (some row.data) }.goto i p .raised)
      | none => some (s.goto i p .addGift)
  | .addGift =>
      some ({ s with
        gifts := s.gifts ++ [GiftRecordRow.mk p.cmd.target fun _ => none]
        giftObj := Function.update s.giftObj p.cmd.target (some fun _ => none) }.goto i p .raised)
  | .updateGift sId currentNum =>
      some ({ s with gifts := updateGift p.cmd.target sId currentNum s.gifts }.goto i p (.sent currentNum))
  | .liked _ | .notFound | .sent _ | .raised => none

def step (cfg : RobotConfig) (s : UserService) : GiveEvent → Option UserService
  | .send cmd => some (s.send cmd)
  | .resume i => s.procs[i]?.bind (s.resume cfg i)

/-- The service starts with its caches empty. -/
structure Started (s : UserService) : Prop where
  likeObj : ∀ id, s.likeObj id = none
  giftObj : ∀ id, s.giftObj id = none
  procs : s.procs = []

/-- The count of a user is in the one table, that of a robot in the other. -/
def stored (s : UserService) (id : UserId) : Nat :=
  match s.users id with
  | some like => like.getD 0
  | none => s.robotLike id

def giftNum (s : UserService) (id : UserId) (sId : GiftId) : Int :=
  ((s.gifts.find? (·.id = id)).bind (·.data sId)).getD 0

/-- The user or the robot is there. -/
def HasTarget (cfg : RobotConfig) (s : UserService) (id : UserId) : Prop :=
  (s.users id).isSome ∨ cfg.robotMapDatas id = true

end UserService

def GiveEvent.likes (id : UserId) : GiveEvent → Bool
  | .send (.UserLike id') => id' = id
  | _ => false

/-- The command has not found the gifts in the cache. -/
def GivePc.isFirst : GivePc → Bool
  | .getGift | .addGift | .raised => true
  | _ => false

/-- How many of a gift the command sends to a user. -/
def GiveEvent.gifts (id : UserId) (sId : GiftId) : GiveEvent → Int
  | .send (.UserGiftSend uId sId' num) => if uId = id ∧ sId' = sId then num else 0
  | _ => 0

/-- The count that the command has replied. -/
def GiveProc.reply (id : UserId) (p : GiveProc) : Option Nat :=
  match p.cmd, p.pc with
  | .UserLike id', .liked like => if id' = id then some like else none
  | _, _ => none

/-- Nothing has failed, nothing is lost and nothing is written elsewhere. -/
structure UserService.Counted (cfg : RobotConfig) (init : UserService) (es : List GiveEvent) (s : UserService) :
    Prop where
  noFail : ∀ p ∈ s.procs, init.HasTarget cfg p.cmd.target → p.pc ≠ .notFound ∧ p.pc ≠ .raised
  likes : ∀ id, init.HasTarget cfg id → s.stored id = init.stored id + es.countP (·.likes id)
  replies : ∀ id, init.HasTarget cfg id → (s.procs.filterMap (·.reply id)).Nodup
  gifts : ∀ id sId, (init.users id).isSome →
    s.giftNum id sId = init.giftNum id sId + (es.map (·.gifts id sId)).sum

namespace UserService

/-- The cache has been filled by a command that has failed. -/
structure GiftInv (s : UserService) : Prop where
  cached : ∀ id, (s.giftObj id).isSome → ∃ p ∈ s.procs, p.cmd.target = id ∧ p.pc = .raised
  first : ∀ p ∈ s.procs, ∀ uId sId num, p.cmd = .UserGiftSend uId sId num →
    ∃ q ∈ s.procs, q.cmd.target = uId ∧ q.pc.isFirst = true

section Giving
variable {cfg : RobotConfig} {init s t : UserService} {i : Nat} {p : GiveProc} {pc : GivePc} {cmd : GiveCmd}
  {e : GiveEvent} {es : List GiveEvent} {id : UserId}

theorem updateLike_frame (s : UserService) (id : UserId) (obj : LikeObj) :
    (s.updateLike id obj).likeObj = s.likeObj ∧ (s.updateLike id obj).procs = s.procs ∧
      (s.updateLike id obj).gifts = s.gifts ∧ (s.updateLike id obj).giftObj = s.giftObj := by
  unfold updateLike
  split
  · exact ⟨rfl, rfl, rfl, rfl⟩
  · exact ⟨rfl, rfl, rfl, rfl⟩

/-- The rows of another user stay. -/
theorem find_updateGift {uId : UserId} {sId : GiftId} {n : Int} {rows : List GiftRecordRow} (other : uId ≠ id) :
    (updateGift uId sId n rows).find? (·.id = id) = rows.find? (·.id = id) := by
  induction rows with
  | nil => rfl
  | cons row rows ih =>
      rw [updateGift]
      split
      · rename_i here
        rw [List.find?_cons_of_neg, List.find?_cons_of_neg]
        · simpa [here] using other
        · simpa [here] using other
      · rw [List.find?_cons, List.find?_cons, ih]

/-- What a command does to the gifts when it goes on. -/
structure GiftMove (s t : UserService) (i : Nat) (p : GiveProc) (pc : GivePc) : Prop where
  procs : t.procs = s.procs.set i { p with pc }
  first : p.pc.isFirst = true → pc.isFirst = true
  running : p.pc ≠ .raised
  cached : ∀ id, (t.giftObj id).isSome → (s.giftObj id).isSome ∨ (p.cmd.target = id ∧ pc = .raised)
  others : ∀ id sId, p.cmd.target ≠ id → t.giftNum id sId = s.giftNum id sId

/-- A command that does not touch the gifts. -/
theorem giftMove_same (first : p.pc.isFirst = true → pc.isFirst = true) (running : p.pc ≠ .raised)
    (gifts : t.gifts = s.gifts) (giftObj : t.giftObj = s.giftObj) (procs : t.procs = s.procs) :
    GiftMove s (t.goto i p pc) i p pc := by
  refine ⟨?_, first, running, fun id some_ => .inl ?_, fun id sId _ => ?_⟩
  · rw [← procs]
    rfl
  · rw [← giftObj]
    exact some_
  · rw [giftNum, giftNum, ← gifts]
    rfl

theorem gift_cached {data : GiftData} {pc : GivePc}
    (some_ : (Function.update s.giftObj p.cmd.target (some data) id).isSome) (raised : pc = .raised) :
    (s.giftObj id).isSome ∨ (p.cmd.target = id ∧ pc = .raised) := by
  by_cases same : id = p.cmd.target
  · exact .inr ⟨same.symm, raised⟩
  · rw [Function.update_of_ne same] at some_
    exact .inl some_

theorem resume_gift (moved : s.resume cfg i p = some t) : ∃ pc, GiftMove s t i p pc := by
  obtain ⟨cmd, pc⟩ := p
  cases pc with
  | getUser =>
      simp only [resume] at moved
      split at moved
      · obtain rfl := Option.some.inj moved
        exact ⟨_, giftMove_same Bool.noConfusion GivePc.noConfusion rfl rfl rfl⟩
      · obtain rfl := Option.some.inj moved
        exact ⟨_, giftMove_same Bool.noConfusion GivePc.noConfusion rfl rfl rfl⟩
  | getRobotInfo =>
      simp only [resume] at moved
      split at moved
      · obtain rfl := Option.some.inj moved
        exact ⟨_, giftMove_same Bool.noConfusion GivePc.noConfusion rfl rfl rfl⟩
      · obtain rfl := Option.some.inj moved
        exact ⟨_, giftMove_same Bool.noConfusion GivePc.noConfusion rfl rfl rfl⟩
  | getRobot =>
      simp only [resume] at moved
      split at moved
      · obtain rfl := Option.some.inj moved
        exact ⟨_, giftMove_same Bool.noConfusion GivePc.noConfusion rfl rfl rfl⟩
      · obtain rfl := Option.some.inj moved
        exact ⟨_, giftMove_same Bool.noConfusion GivePc.noConfusion rfl rfl rfl⟩
  | addRobot like =>
      obtain rfl := Option.some.inj moved
      exact ⟨_, giftMove_same Bool.noConfusion GivePc.noConfusion rfl rfl rfl⟩
  | updateLike obj =>
      obtain rfl := Option.some.inj moved
      obtain ⟨_, procs, gifts, giftObj⟩ := updateLike_frame s cmd.target obj
      exact ⟨_, giftMove_same Bool.noConfusion GivePc.noConfusion gifts giftObj procs⟩
  | getGift =>
      simp only [resume] at moved
      split at moved
      · obtain rfl := Option.some.inj moved
        exact ⟨.raised, rfl, fun _ => rfl, GivePc.noConfusion,
          fun id some_ => @gift_cached s ⟨cmd, .getGift⟩ id _ _ some_ rfl, fun _ _ _ => rfl⟩
      · obtain rfl := Option.some.inj moved
        exact ⟨_, giftMove_same (fun _ => rfl) GivePc.noConfusion rfl rfl rfl⟩
  | addGift =>
      obtain rfl := Option.some.inj moved
      refine ⟨.raised, rfl, fun _ => rfl, GivePc.noConfusion,
        fun id some_ => @gift_cached s ⟨cmd, .getGift⟩ id _ _ some_ rfl, fun id sId other => ?_⟩
      have still : (s.gifts ++ [GiftRecordRow.mk cmd.target fun _ => none]).find? (·.id = id) =
          s.gifts.find? (·.id = id) := by
        rw [List.find?_append, List.find?_cons_of_neg (by simpa using other), List.find?_nil, Option.or_none]
      exact congrArg (fun row => (row.bind (·.data sId)).getD 0) still
  | updateGift sId currentNum =>
      obtain rfl := Option.some.inj moved
      refine ⟨.sent currentNum, rfl, Bool.noConfusion, GivePc.noConfusion, fun id some_ => .inl some_,
        fun id sId' other => ?_⟩
      exact congrArg (fun row => (row.bind (·.data sId')).getD 0) (find_updateGift other)
  | liked | notFound | sent | raised => cases moved

/-- A command that has been moved on is still there. -/
theorem GiftMove.still {P : GiveProc → Prop} (here : s.procs[i]? = some p) (move : GiftMove s t i p pc)
    (kept : P p → P { p with pc }) (some_ : ∃ q ∈ s.procs, P q) : ∃ q ∈ t.procs, P q := by
  rw [move.procs]
  obtain other | holds := (exists_mem_set here).mpr (.inl some_)
  · exact other
  · exact ⟨_, List.mem_set (List.getElem?_eq_some_iff.mp here).1 _, kept holds⟩

theorem send_procs (s : UserService) (cmd : GiveCmd) : ∃ pc, (s.send cmd).procs = s.procs ++ [⟨cmd, pc⟩] := by
  cases cmd with
  | UserLike id =>
      simp only [send]
      split
      · exact ⟨_, rfl⟩
      · exact ⟨_, rfl⟩
  | UserGiftSend uId sId num =>
      simp only [send]
      split
      · exact ⟨_, rfl⟩
      · exact ⟨_, rfl⟩

/-- One more command. -/
theorem GiftInv.snoc (inv : GiftInv s) (procs : t.procs = s.procs ++ [p])
    (cached : ∀ id, (t.giftObj id).isSome → ∃ q ∈ s.procs, q.cmd.target = id ∧ q.pc = .raised)
    (first : ∀ uId sId num, p.cmd = .UserGiftSend uId sId num →
      (∃ q ∈ s.procs, q.cmd.target = uId ∧ q.pc.isFirst = true) ∨ (p.cmd.target = uId ∧ p.pc.isFirst = true)) :
    GiftInv t := by
  refine ⟨fun id some_ => ?_, fun q mem uId sId num given => ?_⟩
  · rw [procs]
    obtain ⟨q, mem, both⟩ := cached id some_
    exact ⟨q, List.mem_append_left _ mem, both⟩
  · rw [procs] at mem ⊢
    have known : (∃ q ∈ s.procs, q.cmd.target = uId ∧ q.pc.isFirst = true) ∨
        (p.cmd.target = uId ∧ p.pc.isFirst = true) := by
      obtain old | rfl := List.mem_append.mp mem |>.imp_right List.mem_singleton.mp
      · exact .inl (inv.first q old uId sId num given)
      · exact first uId sId num given
    obtain ⟨q, mem, both⟩ | both := known
    · exact ⟨q, List.mem_append_left _ mem, both⟩
    · exact ⟨p, List.mem_append_right _ List.mem_cons_self, both⟩

theorem gift_send (inv : GiftInv s) (cmd : GiveCmd) : GiftInv (s.send cmd) := by
  cases cmd with
  | UserLike id =>
      have same : (s.send (.UserLike id)).giftObj = s.giftObj := by
        simp only [send]
        split
        · rfl
        · rfl
      obtain ⟨pc, procs⟩ := send_procs s (.UserLike id)
      refine inv.snoc procs (fun id' some_ => ?_) fun uId sId num given => ?_
      · exact inv.cached id' (same ▸ some_)
      · cases given
  | UserGiftSend uId sId num =>
      obtain ⟨pc, procs⟩ := send_procs s (.UserGiftSend uId sId num)
      cases cached : s.giftObj uId with
      | some data =>
          refine inv.snoc procs (fun id some_ => ?_) fun uId' sId' num' given => ?_
          · simp only [send, cached] at some_
            by_cases same : id = uId
            · exact inv.cached id (same ▸ cached ▸ rfl)
            · rw [Function.update_of_ne same] at some_
              exact inv.cached id some_
          · obtain ⟨q, mem, target, raised⟩ := inv.cached uId (cached ▸ rfl)
            cases given
            exact .inl ⟨q, mem, target, raised ▸ rfl⟩
      | none =>
          refine inv.snoc procs (fun id some_ => ?_) fun uId' sId' num' given => ?_
          · simp only [send, cached] at some_
            exact inv.cached id some_
          · simp only [send, cached] at procs
            cases given
            obtain rfl : pc = .getGift := by
              cases List.append_cancel_left procs
              rfl
            exact .inr ⟨rfl, rfl⟩

theorem gift_step (inv : GiftInv s) (moved : step cfg s e = some t) : GiftInv t := by
  cases e with
  | send cmd =>
      obtain rfl := Option.some.inj moved
      exact gift_send inv cmd
  | resume i =>
      obtain ⟨p, here, moved⟩ := Option.bind_eq_some_iff.mp moved
      obtain ⟨pc, move⟩ := resume_gift moved
      refine ⟨fun id some_ => ?_, fun q mem uId sId num given => ?_⟩
      · obtain before | ⟨target, raised⟩ := move.cached id some_
        · refine move.still here (fun both => absurd both.2 move.running) (inv.cached id before)
        · refine ⟨{ p with pc }, ?_, target, raised⟩
          rw [move.procs]
          exact List.mem_set (List.getElem?_eq_some_iff.mp here).1 _
      · have before : ∃ q' ∈ s.procs, q'.cmd = .UserGiftSend uId sId num := by
          rw [move.procs] at mem
          obtain old | rfl := List.mem_or_eq_of_mem_set mem
          · exact ⟨q, old, given⟩
          · exact ⟨p, List.mem_of_getElem? here, given⟩
        obtain ⟨q', mem', given'⟩ := before
        exact move.still here (fun both => ⟨both.1, move.first both.2⟩) (inv.first q' mem' uId sId num given')

theorem gift_start (started : Started init) : GiftInv init :=
  ⟨fun id some_ => absurd some_ (by simp [started.giftObj id]),
    fun p mem => absurd (started.procs ▸ mem) List.not_mem_nil⟩

end Giving

end UserService

end HuluLandlord.Services
