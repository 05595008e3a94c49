import HuluLandlord.Define
import HuluLandlord.Transition
import HuluLandlord.Table

/-!
Friends, applications and blacklists: the rows of three collections, and the requests of all
users over them. A request runs from one database call to the next, and between two calls the
requests of others run. What is not in the three collections is answered from outside: whether
there is a user or a robot of an id and whether it takes applications, and whether the user
service knows a user.
-/
namespace HuluLandlord.Agent
open Transition Table

/-- A row of the friends of `id`. -/
abbrev FriendRow := UserId × UserId

/-- A row that a user has applied to be a friend of `id`; those of `type` 0 are all there are. -/
structure FriendApplyRow where
  uId : UserId
  id : UserId
  dt : Int
  deriving DecidableEq, Repr

def MaxFriend : Nat := 100

def MaxApply : Nat := 100

/-- The calls of `apply`, but for the first and the last. -/
inductive ApplyCheck
  | isFriend | friends | received | sent | theirBlack | myBlack | crossing | again
  deriving DecidableEq, Repr

/-- The call a request waits for; `askIds` are those it has still to go through. A removal may be
the first part of a request that puts `black` on the blacklist. -/
inductive FriendPc
  | done
  | applyTarget (id : UserId)
  | apply (id : UserId) (not_accept_apply : Bool) (check : ApplyCheck)
  | applyWrite (id : UserId)
  | handleAll (op : Int)
  | handleCheck (op : Int) (checked : List UserId) (askid : UserId) (askIds : List UserId)
  | handleCount (askIds : List UserId)
  | agree (askid : UserId) (askIds : List UserId) (myfct : Nat)
  | agreeKnown (askid : UserId) (askIds : List UserId) (myfct : Nat)
  | agreeCount (askid : UserId) (askIds : List UserId) (myfct : Nat)
  | addGet (askid : UserId) (askIds : List UserId) (myfct : Nat)
  | addTarget (askid : UserId) (askIds : List UserId) (myfct : Nat)
  | addFirst (askid : UserId) (askIds : List UserId) (myfct : Nat) (target : Bool)
  | addSecond (askid : UserId) (askIds : List UserId) (myfct : Nat)
  | agreeDel (askid : UserId) (askIds : List UserId) (myfct : Nat)
  | ignore (askid : UserId) (askIds : List UserId)
  | removeGet (id black : Option UserId)
  | removeFirst (id black : Option UserId)
  | removeSecond (id black : Option UserId)
  | blackTarget (blackuid : UserId)
  | blackAdd (blackuid : UserId)
  | blackDel (blackuid : UserId)
  | unblack (blackuid : UserId) (friendapply : Bool)
  deriving DecidableEq, Repr

/-- Rows `(id, uId)` of friends and `(uid, blackuid)` of blacklists. -/
structure FriendState where
  friends : List FriendRow
  applies : List FriendApplyRow
  blacks : List (UserId × UserId)
  threads : List (UserId × FriendPc)
  deriving DecidableEq, Repr

inductive FriendRequest
  | FriendApply (id : Option UserId) (fromType : Option Nat)
  | FriendApplyHandler (idArr : Option (List UserId)) (type : Int) (isAll : Bool)
  | FriendRemove (id : Option UserId)
  | Friend_AddBlackList (blackuid : Option UserId)
  | Friend_RemoveBlackList (blackuid : Option UserId) (friendapply : Option Bool)
  deriving DecidableEq, Repr

/-- The answers from outside are those to the request at `i`: the row of a user, with
`not_accept_apply` also for a robot, and whether the user service knows one. -/
inductive FriendEvent
  | request (me : UserId) (request : FriendRequest)
  | target (i : Nat) (not_accept_apply : Option Bool)
  | userBase (i : Nat) (known : Bool)
  | resume (i : Nat) (now : Int)
  deriving DecidableEq, Repr

namespace FriendPc

/-- `apply`, up to its first call. -/
def applying (me id : UserId) : FriendPc := if id = me then .done else .applyTarget id

/-- The loop over the applications to be agreed to. -/
def agreeing (myfct : Nat) : List UserId → FriendPc
  | [] => .done
  | askid :: askIds => .agree askid askIds myfct

def ignoring : List UserId → FriendPc
  | [] => .done
  | askid :: askIds => .ignore askid askIds

/-- All applications are there. -/
def handling (op : Int) (askIds : List UserId) : FriendPc :=
  if op = 1 then .handleCount askIds else ignoring askIds

def checking (op : Int) (checked : List UserId) : List UserId → FriendPc
  | [] => handling op checked
  | askid :: askIds => .handleCheck op checked askid askIds

/-- What follows a removal. -/
def removed : Option UserId → FriendPc
  | none => .done
  | some blackuid => .blackAdd blackuid

/-- A request, up to its first call. -/
def asked (me : UserId) : FriendRequest → FriendPc
  | .FriendApply (some id) (some _) => applying me id
  | .FriendApply _ _ => .done
  | .FriendApplyHandler _ op true => .handleAll op
  | .FriendApplyHandler (some (askid :: askIds)) op false => .handleCheck op [] askid askIds
  | .FriendApplyHandler _ _ false => .done
  | .FriendRemove id => .removeGet id none
  | .Friend_AddBlackList (some blackuid) => .blackTarget blackuid
  | .Friend_AddBlackList none => .done
  | .Friend_RemoveBlackList (some blackuid) (some friendapply) => .unblack blackuid friendapply
  | .Friend_RemoveBlackList _ _ => .done

end FriendPc

/-- A selector; a field that is not there matches every row. -/
def selectsRow (id uId : Option UserId) (r : FriendRow) : Bool :=
  id.all (fun x => r.1 = x) && uId.all (fun x => r.2 = x)

namespace FriendState
variable (dayZero : Int → Int) (now : Int) (me : UserId)

def del (s : FriendState) (id uId : Option UserId) : FriendState :=
  { s with friends := s.friends.filter fun r => !selectsRow id uId r }

def delApply (s : FriendState) (uId id : UserId) : FriendState :=
  { s with applies := s.applies.filter fun a => ¬(a.uId = uId ∧ a.id = id) }

/-- `dbx.update_add` of an application, on the first row there is. -/
def upsert (uId id : UserId) (dt : Int) : List FriendApplyRow → List FriendApplyRow
  | [] => [⟨uId, id, dt⟩]
  | a :: rows => if a.uId = uId ∧ a.id = id then ⟨uId, id, dt⟩ :: rows
      else a :: upsert uId id dt rows

/-- One call of `apply`. -/
def applyCheck (s : FriendState) (id : UserId) (not_accept_apply : Bool) : ApplyCheck → FriendPc
  | .isFriend =>
      if (me, id) ∈ s.friends then .done else .apply id not_accept_apply .friends
  | .friends =>
      if s.friends.countP (fun r => r.2 = me) ≥ MaxFriend then .done
      else if not_accept_apply then .done
      else .apply id not_accept_apply .received
  | .received =>
      if s.applies.countP (fun a => a.id = id) ≥ MaxApply then .done
      else .apply id not_accept_apply .sent
  | .sent =>
      if s.applies.countP (fun a => a.uId = me ∧ a.dt > dayZero now) ≥ MaxApply then .done
      else .apply id not_accept_apply .theirBlack
  | .theirBlack => if (id, me) ∈ s.blacks then .done else .apply id not_accept_apply .myBlack
  | .myBlack => if (me, id) ∈ s.blacks then .done else .apply id not_accept_apply .crossing
  | .crossing =>
      if s.applies.any (fun a => a.uId = id ∧ a.id = me) then .done
      else .apply id not_accept_apply .again
  | .again => match s.applies.find? (fun a => a.uId = me ∧ a.id = id) with
      | none => .applyWrite id
      | some obj => if dayZero now = dayZero obj.dt then .done else .applyWrite id

/-- A call of a request, and the call it waits for next. -/
def resume (s : FriendState) : FriendPc → Option (FriendState × FriendPc)
  | .done | .applyTarget _ | .addTarget .. | .blackTarget _ => none
  | .apply id not_accept_apply check =>
      some (s, s.applyCheck dayZero now me id not_accept_apply check)
  | .applyWrite id => some ({ s with applies := upsert me id now s.applies }, .done)
  | .handleAll op =>
      some (s, .handling op ((s.applies.filter fun a => a.id = me).map FriendApplyRow.uId))
  | .handleCheck op checked askid askIds =>
      if s.applies.any (fun a => a.uId = askid ∧ a.id = me) then
        some (s, .checking op (checked ++ [askid]) askIds)
      else some (s, .done)
  | .handleCount askIds =>
      let myfct := s.friends.countP fun r => r.1 = me
      some (s, if myfct ≥ MaxFriend then .done else .agreeing myfct askIds)
  | .agree askid askIds myfct =>
      some (s, if (me, askid) ∈ s.friends then .agreeKnown askid askIds myfct
        else .agreeCount askid askIds myfct)
  | .agreeKnown askid askIds myfct => some (s.delApply askid me, .agreeing myfct askIds)
  | .agreeCount askid askIds myfct =>
      some (s, if s.friends.countP (fun r => r.1 = askid) < MaxFriend then
        .addGet askid askIds myfct else .agreeing myfct askIds)
  | .addGet askid askIds myfct =>
      some (s, if (askid, me) ∈ s.friends then .agreeing myfct askIds
        else .addTarget askid askIds myfct)
  | .addFirst askid askIds myfct target =>
      some ({ s with friends := s.friends ++ [(askid, me)] },
        if target then .addSecond askid askIds myfct else .done)
  | .addSecond askid askIds myfct =>
      some ({ s with friends := s.friends ++ [(me, askid)] }, .agreeDel askid askIds myfct)
  | .agreeDel askid askIds myfct =>
      some (s.delApply askid me,
        if myfct + 1 ≥ MaxFriend then .done else .agreeing (myfct + 1) askIds)
  | .ignore askid askIds => some (s.delApply askid me, .ignoring askIds)
  | .removeGet id black =>
      some (s, if s.friends.any (selectsRow id (some me)) then .removeFirst id black
        else .removed black)
  | .removeFirst id black => some (s.del id (some me), .removeSecond id black)
  | .removeSecond id black => some (s.del (some me) id, .removed black)
  | .blackAdd blackuid =>
      some ({ s with blacks := s.blacks ++ [(me, blackuid)] }, .blackDel blackuid)
  | .blackDel blackuid => some (s.delApply me blackuid, .done)
  | .unblack blackuid friendapply =>
      some ({ s with blacks := s.blacks.filter fun b => b ≠ (me, blackuid) },
        if friendapply then .applying me blackuid else .done)

/-- A request, as far as it has come. -/
def yield (i : Nat) (me : UserId) (r : FriendState × FriendPc) : FriendState :=
  { r.1 with threads := r.1.threads.set i (me, r.2) }

def step (s : FriendState) (e : FriendEvent) : Option FriendState :=
  match e with
  | .request me request => some { s with threads := s.threads ++ [(me, .asked me request)] }
  | .target i not_accept_apply => match s.threads[i]? with
      | some (me, .applyTarget id) => some <| yield i me (s, match not_accept_apply with
          | none => .done
          | some not_accept_apply => .apply id not_accept_apply .isFriend)
      | some (me, .blackTarget blackuid) => some <| yield i me (s, match not_accept_apply with
          | none => .done
          | some _ => .removeGet (some blackuid) (some blackuid))
      | _ => none
  | .userBase i known => match s.threads[i]? with
      | some (me, .addTarget askid askIds myfct) =>
          some (yield i me (s, .addFirst askid askIds myfct known))
      | _ => none
  | .resume i now => do
      let t ← s.threads[i]?
      let r ← s.resume dayZero now t.1 t.2
      some (yield i t.1 r)

/-- Nobody has a friend yet. -/
def start : FriendState := ⟨[], [], [], []⟩

end FriendState

/-- The row a request is going to write as its second one. -/
def coming (t : UserId × FriendPc) : Option FriendRow :=
  match t.2 with
  | .addSecond askid _ _ => some (t.1, askid)
  | _ => none

/-- A request is going to delete a row, as one of those it deletes last. -/
def going (t : UserId × FriendPc) (r : FriendRow) : Bool :=
  match t.2 with
  | .removeSecond id _ => selectsRow (some t.1) id r
  | _ => false

/-- The friends are one row for each of two users, but for two a request is just writing the rows
of, and they are as many as allowed and on no blacklist of each other. -/
structure Friendly (s : FriendState) : Prop where
  once : s.friends.Nodup
  irreflexive : ∀ id, (id, id) ∉ s.friends
  symmetric : ∀ id uId, (id, uId) ∈ s.friends → (uId, id) ∈ s.friends ∨
    ∃ t ∈ s.threads, coming t = some (uId, id) ∨ going t (id, uId) = true
  count : ∀ id, s.friends.countP (fun r => r.1 = id) ≤ MaxFriend
  black : ∀ id uId, (id, uId) ∈ s.blacks → (id, uId) ∉ s.friends ∧ (uId, id) ∉ s.friends

namespace FriendState

/-- The rows that are about to be written. -/
def comingRows (threads : List (UserId × FriendPc)) : List FriendRow := threads.filterMap coming

/-- A user may have one friend more, the rows that are about to be written counted. -/
def HasRoom (s : FriendState) (id : UserId) : Prop :=
  s.friends.countP (fun r => r.1 = id) +
    (comingRows s.threads).countP (fun r => r.1 = id) < MaxFriend

/-- What a request has found out before it writes still holds: for the first row of a friendship
that there is no row and no removal under way, that both have room, and that neither is on the
other's blacklist; for the first deletion that no friendship of those is half written; for the
blacklist that the two are no friends. -/
def Fresh (s : FriendState) (me : UserId) : FriendPc → Prop
  | .addFirst askid _ _ target => target = true ∧
      (askid, me) ∉ s.friends ∧ (me, askid) ∉ s.friends ∧
      (∀ t ∈ s.threads, going t (me, askid) = false ∧ going t (askid, me) = false) ∧
      s.HasRoom me ∧ s.HasRoom askid ∧ (me, askid) ∉ s.blacks ∧ (askid, me) ∉ s.blacks
  | .removeFirst id _ => ∀ r ∈ comingRows s.threads,
      selectsRow (some me) id r = false ∧ selectsRow (some me) id r.swap = false
  | .blackAdd blackuid => (me, blackuid) ∉ s.friends ∧ (blackuid, me) ∉ s.friends
  | _ => True

/-- A request does not write on what is out of date. -/
def fresh (s : FriendState) : FriendEvent → Prop
  | .resume i _ => ∀ t ∈ s.threads[i]?, s.Fresh t.1 t.2
  | _ => True

end FriendState

namespace FriendPc

/-- Those whom a request knows to be other users. -/
def others : FriendPc → List UserId
  | .applyTarget id | .apply id _ _ | .applyWrite id => [id]
  | .handleCheck _ checked _ _ => checked
  | .handleCount askIds => askIds
  | .agree askid askIds _ | .agreeKnown askid askIds _ | .agreeCount askid askIds _
  | .addGet askid askIds _ | .addTarget askid askIds _ | .addFirst askid askIds _ _
  | .addSecond askid askIds _ | .agreeDel askid askIds _ => askid :: askIds
  | _ => []

/-- A request is not between two writes. -/
def Idle (pc : FriendPc) : Prop :=
  ∀ me, coming (me, pc) = none ∧ ∀ r, going (me, pc) r = false

section Idle
variable {op : Int} {askIds checked : List UserId} {myfct : Nat} {me id : UserId}

theorem idle_agreeing : (agreeing myfct askIds).Idle := by
  cases askIds with
  | nil => exact fun _ => ⟨rfl, fun _ => rfl⟩
  | cons askid askIds => exact fun _ => ⟨rfl, fun _ => rfl⟩

theorem idle_ignoring : (ignoring askIds).Idle := by
  cases askIds with
  | nil => exact fun _ => ⟨rfl, fun _ => rfl⟩
  | cons askid askIds => exact fun _ => ⟨rfl, fun _ => rfl⟩

theorem idle_handling : (handling op askIds).Idle := by
  rw [handling]
  split
  · exact fun _ => ⟨rfl, fun _ => rfl⟩
  · exact idle_ignoring

theorem idle_checking : (checking op checked askIds).Idle := by
  cases askIds with
  | nil => exact idle_handling
  | cons askid askIds => exact fun _ => ⟨rfl, fun _ => rfl⟩

theorem idle_removed {black : Option UserId} : (removed black).Idle := by
  cases black with
  | none => exact fun _ => ⟨rfl, fun _ => rfl⟩
  | some blackuid => exact fun _ => ⟨rfl, fun _ => rfl⟩

theorem idle_applying : (applying me id).Idle := by
  rw [applying]
  split
  · exact fun _ => ⟨rfl, fun _ => rfl⟩
  · exact fun _ => ⟨rfl, fun _ => rfl⟩

theorem others_agreeing : (agreeing myfct askIds).others ⊆ askIds := by
  cases askIds with
  | nil => exact List.nil_subset _
  | cons askid askIds => exact List.Subset.refl _

theorem others_ignoring : (ignoring askIds).others = [] := by
  cases askIds with
  | nil => rfl
  | cons askid askIds => rfl

theorem others_handling : (handling op askIds).others ⊆ askIds := by
  rw [handling]
  split
  · exact List.Subset.refl _
  · rw [others_ignoring]
    exact List.nil_subset _

theorem others_checking : (checking op checked askIds).others ⊆ checked := by
  cases askIds with
  | nil => exact others_handling
  | cons askid askIds => exact List.Subset.refl _

theorem others_applying : ∀ x ∈ (applying me id).others, x ≠ me := by
  rw [applying]
  split
  · exact fun x mem => nomatch mem
  · rename_i other
    intro x mem
    rw [List.mem_singleton.mp mem]
    exact other

end Idle

end FriendPc

namespace FriendState

/-- What holds of the rows and of requests under way. -/
structure FriendInv (s : FriendState) (threads : List (UserId × FriendPc)) : Prop where
  once : s.friends.Nodup
  irreflexive : ∀ r ∈ s.friends, r.1 ≠ r.2
  applies : ∀ a ∈ s.applies, a.uId ≠ a.id
  others : ∀ t ∈ threads, ∀ x ∈ t.2.others, x ≠ t.1
  coming : (comingRows threads).Nodup
  half : ∀ r ∈ comingRows threads, r ∉ s.friends ∧ r.swap ∈ s.friends ∧
    ∀ t ∈ threads, going t r = false ∧ going t r.swap = false
  gone : ∀ t ∈ threads, ∀ r, going t r = true → r.swap ∉ s.friends
  symmetric : ∀ r ∈ s.friends, r.swap ∈ s.friends ∨ r.swap ∈ comingRows threads ∨
    ∃ t ∈ threads, going t r = true
  count : ∀ id, s.friends.countP (fun r => r.1 = id) +
    (comingRows threads).countP (fun r => r.1 = id) ≤ MaxFriend
  black : ∀ r ∈ s.friends, r ∉ s.blacks ∧ r.swap ∉ s.blacks

section Threads
variable {s s' : FriendState} {threads rest : List (UserId × FriendPc)} {t : UserId × FriendPc}
  {me askid : UserId} {askIds : List UserId} {myfct : Nat} {id black : Option UserId}

theorem FriendInv.perm (inv : s.FriendInv threads) (perm : threads.Perm rest) :
    s.FriendInv rest := by
  have rows : (comingRows threads).Perm (comingRows rest) := perm.filterMap Agent.coming
  refine ⟨inv.once, inv.irreflexive, inv.applies, fun t mem => inv.others t (perm.mem_iff.mpr mem),
    rows.nodup_iff.mp inv.coming, fun r mem => ?_, fun t mem => inv.gone t (perm.mem_iff.mpr mem),
    fun r mem => ?_, fun id => ?_, inv.black⟩
  · obtain ⟨missing, there, calm⟩ := inv.half r (rows.mem_iff.mpr mem)
    exact ⟨missing, there, fun t mem => calm t (perm.mem_iff.mpr mem)⟩
  · obtain both | half | ⟨t, mem, going⟩ := inv.symmetric r mem
    · exact .inl both
    · exact .inr (.inl (rows.mem_iff.mp half))
    · exact .inr (.inr ⟨t, perm.mem_iff.mp mem, going⟩)
  · rw [← rows.countP_eq]
    exact inv.count id

theorem comingRows_idle (idle : t.2.Idle) : comingRows (t :: rest) = comingRows rest :=
  List.filterMap_cons_none (idle t.1).1

/-- A request that is not between two writes may come and go. -/
theorem inv_cons (inv : s.FriendInv rest) (idle : t.2.Idle) (others : ∀ x ∈ t.2.others, x ≠ t.1) :
    s.FriendInv (t :: rest) := by
  have still : ∀ r, going t r = false := (idle t.1).2
  refine ⟨inv.once, inv.irreflexive, inv.applies, List.forall_mem_cons.mpr ⟨others, inv.others⟩,
    ?_, ?_, ?_, ?_, ?_, inv.black⟩
  · rw [comingRows_idle idle]
    exact inv.coming
  · intro r mem
    rw [comingRows_idle idle] at mem
    obtain ⟨missing, there, calm⟩ := inv.half r mem
    exact ⟨missing, there, List.forall_mem_cons.mpr ⟨⟨still r, still r.swap⟩, calm⟩⟩
  · refine List.forall_mem_cons.mpr ⟨fun r goes => ?_, inv.gone⟩
    nomatch (still r).symm.trans goes
  · intro r mem
    rw [comingRows_idle idle]
    obtain both | half | ⟨t', mem, goes⟩ := inv.symmetric r mem
    · exact .inl both
    · exact .inr (.inl half)
    · exact .inr (.inr ⟨t', List.mem_cons_of_mem t mem, goes⟩)
  · rw [comingRows_idle idle]
    exact inv.count

theorem inv_tail (inv : s.FriendInv (t :: rest)) (idle : t.2.Idle) : s.FriendInv rest := by
  have still : ∀ r, going t r = false := (idle t.1).2
  have rows : comingRows (t :: rest) = comingRows rest := comingRows_idle idle
  refine ⟨inv.once, inv.irreflexive, inv.applies, (List.forall_mem_cons.mp inv.others).2,
    rows ▸ inv.coming, ?_, (List.forall_mem_cons.mp inv.gone).2, ?_, rows ▸ inv.count, inv.black⟩
  · intro r mem
    obtain ⟨missing, there, calm⟩ := inv.half r (rows.symm ▸ mem)
    exact ⟨missing, there, (List.forall_mem_cons.mp calm).2⟩
  · intro r mem
    obtain both | half | ⟨t', mem, goes⟩ := inv.symmetric r mem
    · exact .inl both
    · exact .inr (.inl (rows ▸ half))
    · obtain rfl | mem := List.mem_cons.mp mem
      · cases (still r).symm.trans goes
      · exact .inr (.inr ⟨t', mem, goes⟩)

/-- Applications and blacklists that have become shorter or stay sound. -/
theorem inv_tables (inv : s.FriendInv rest) (friends : s'.friends = s.friends)
    (blacks : s'.blacks ⊆ s.blacks) (applies : ∀ a ∈ s'.applies, a.uId ≠ a.id) :
    s'.FriendInv rest := by
  refine ⟨friends ▸ inv.once, friends ▸ inv.irreflexive, applies, inv.others, inv.coming,
    friends ▸ inv.half, friends ▸ inv.gone, friends ▸ inv.symmetric, friends ▸ inv.count, ?_⟩
  intro r mem
  obtain ⟨free, free'⟩ := inv.black r (friends ▸ mem)
  exact ⟨fun mem => free (blacks mem), fun mem => free' (blacks mem)⟩

theorem selectsRow_del {uId : Option UserId} {r : FriendRow} :
    r ∈ (s.del id uId).friends ↔ r ∈ s.friends ∧ selectsRow id uId r = false := by
  rw [del, List.mem_filter, Bool.not_eq_true']

theorem selectsRow_swap {uId : Option UserId} {r : FriendRow} :
    selectsRow id uId r.swap = selectsRow uId id r := Bool.and_comm ..

theorem comingRows_second : comingRows ((me, .addSecond askid askIds myfct) :: rest) =
    (me, askid) :: comingRows rest := List.filterMap_cons_some rfl

/-- The first row of a friendship, with the second one to come. -/
theorem inv_addFirst (inv : s.FriendInv rest) (others : ∀ x ∈ askid :: askIds, x ≠ me)
    (free : (askid, me) ∉ s.friends) (free' : (me, askid) ∉ s.friends)
    (calm : ∀ t ∈ rest, going t (me, askid) = false ∧ going t (askid, me) = false)
    (room : s.friends.countP (fun r => r.1 = me) +
      (comingRows rest).countP (fun r => r.1 = me) < MaxFriend)
    (room' : s.friends.countP (fun r => r.1 = askid) +
      (comingRows rest).countP (fun r => r.1 = askid) < MaxFriend)
    (black : (me, askid) ∉ s.blacks) (black' : (askid, me) ∉ s.blacks) :
    FriendInv { s with friends := s.friends ++ [(askid, me)] }
      ((me, .addSecond askid askIds myfct) :: rest) := by
  have apart : askid ≠ me := others askid (List.mem_cons_self ..)
  have member : ∀ r, r ∈ s.friends ++ [(askid, me)] ↔ r ∈ s.friends ∨ r = (askid, me) := by
    intro r
    rw [List.mem_append, List.mem_singleton]
  refine ⟨?_, ?_, inv.applies, List.forall_mem_cons.mpr ⟨others, inv.others⟩, ?_, ?_, ?_, ?_, ?_, ?_⟩
  · exact List.nodup_append.mpr ⟨inv.once, List.nodup_singleton _, fun r mem r' mem' same =>
      free (List.mem_singleton.mp mem' ▸ same ▸ mem)⟩
  · intro r mem
    obtain mem | rfl := (member r).mp mem
    · exact inv.irreflexive r mem
    · exact apart
  · rw [comingRows_second]
    exact List.nodup_cons.mpr ⟨fun mem => free (inv.half _ mem).2.1, inv.coming⟩
  · intro r mem
    rw [comingRows_second] at mem
    obtain rfl | mem := List.mem_cons.mp mem
    · refine ⟨fun mem => ?_, (member _).mpr (.inr rfl), ?_⟩
      · obtain mem | same := (member _).mp mem
        · exact free' mem
        · exact apart (Prod.mk.inj same).1.symm
      · exact List.forall_mem_cons.mpr ⟨⟨rfl, rfl⟩, calm⟩
    · obtain ⟨missing, there, still⟩ := inv.half r mem
      refine ⟨fun mem => ?_, (member _).mpr (.inl there), List.forall_mem_cons.mpr ⟨⟨rfl, rfl⟩, still⟩⟩
      obtain mem | rfl := (member _).mp mem
      · exact missing mem
      · exact free' there
  · refine List.forall_mem_cons.mpr ⟨fun r goes => (nomatch goes), fun t mem r goes mem' => ?_⟩
    obtain mem' | same := (member _).mp mem'
    · exact inv.gone t mem r goes mem'
    · have here : r = (me, askid) := Prod.swap_inj.mp same
      rw [here] at goes
      nomatch (calm t mem).1.symm.trans goes
  · intro r mem
    rw [comingRows_second]
    obtain mem | rfl := (member r).mp mem
    · obtain both | half | ⟨t, mem, goes⟩ := inv.symmetric r mem
      · exact .inl ((member _).mpr (.inl both))
      · exact .inr (.inl (List.mem_cons_of_mem _ half))
      · exact .inr (.inr ⟨t, List.mem_cons_of_mem _ mem, goes⟩)
    · exact .inr (.inl (List.mem_cons_self ..))
  · intro id
    rw [comingRows_second, List.countP_append, List.countP_singleton, List.countP_cons]
    have before := inv.count id
    by_cases mine : id = me
    · subst mine
      simp only [apart, decide_false, decide_true, if_true, Bool.false_eq_true, if_false]
      omega
    · have other : ¬me = id := fun same => mine same.symm
      by_cases theirs : id = askid
      · subst theirs
        simp only [other, decide_false, decide_true, if_true, Bool.false_eq_true, if_false]
        omega
      · have other' : ¬askid = id := fun same => theirs same.symm
        simp only [other, other', decide_false, Bool.false_eq_true, if_false]
        omega
  · intro r mem
    obtain mem | rfl := (member r).mp mem
    · exact inv.black r mem
    · exact ⟨black', black⟩

/-- The second row. -/
theorem inv_addSecond (inv : s.FriendInv ((me, .addSecond askid askIds myfct) :: rest)) :
    FriendInv { s with friends := s.friends ++ [(me, askid)] } rest := by
  have coming := inv.coming
  rw [comingRows_second] at coming
  obtain ⟨new, coming⟩ := List.nodup_cons.mp coming
  have here : (me, askid) ∈ comingRows ((me, .addSecond askid askIds myfct) :: rest) := by
    rw [comingRows_second]
    exact List.mem_cons_self ..
  obtain ⟨missing, there, still⟩ := inv.half _ here
  have member : ∀ r, r ∈ s.friends ++ [(me, askid)] ↔ r ∈ s.friends ∨ r = (me, askid) := by
    intro r
    rw [List.mem_append, List.mem_singleton]
  refine ⟨?_, ?_, inv.applies, (List.forall_mem_cons.mp inv.others).2, coming, ?_, ?_, ?_, ?_, ?_⟩
  · exact List.nodup_append.mpr ⟨inv.once, List.nodup_singleton _, fun r mem r' mem' same =>
      missing (List.mem_singleton.mp mem' ▸ same ▸ mem)⟩
  · intro r mem
    obtain mem | rfl := (member r).mp mem
    · exact inv.irreflexive r mem
    · exact fun same => inv.irreflexive _ there same.symm
  · intro r mem
    have old : r ∈ comingRows ((me, .addSecond askid askIds myfct) :: rest) := by
      rw [comingRows_second]
      exact List.mem_cons_of_mem _ mem
    obtain ⟨missing', there', still'⟩ := inv.half r old
    refine ⟨fun mem' => ?_, (member _).mpr (.inl there'), (List.forall_mem_cons.mp still').2⟩
    obtain mem' | rfl := (member _).mp mem'
    · exact missing' mem'
    · exact new mem
  · intro t mem r goes mem'
    obtain mem' | same := (member _).mp mem'
    · exact inv.gone t (List.mem_cons_of_mem _ mem) r goes mem'
    · have back : r = (askid, me) := Prod.swap_inj.mp same
      rw [back] at goes
      nomatch (still t (List.mem_cons_of_mem _ mem)).2.symm.trans goes
  · intro r mem
    obtain mem | rfl := (member r).mp mem
    · obtain both | half | ⟨t, mem, goes⟩ := inv.symmetric r mem
      · exact .inl ((member _).mpr (.inl both))
      · rw [comingRows_second] at half
        obtain same | half := List.mem_cons.mp half
        · exact .inl ((member _).mpr (.inr same))
        · exact .inr (.inl half)
      · obtain rfl | mem := List.mem_cons.mp mem
        · cases goes
        · exact .inr (.inr ⟨t, mem, goes⟩)
    · exact .inl ((member _).mpr (.inl there))
  · intro id
    have before := inv.count id
    rw [comingRows_second, List.countP_cons] at before
    rw [List.countP_append, List.countP_singleton]
    omega
  · intro r mem
    obtain mem | rfl := (member r).mp mem
    · exact inv.black r mem
    · exact (inv.black _ there).symm

/-- The rows that are deleted first, with those in the other direction still to go. -/
theorem inv_removeFirst (inv : s.FriendInv rest)
    (calm : ∀ r ∈ comingRows rest,
      selectsRow (some me) id r = false ∧ selectsRow (some me) id r.swap = false) :
    (s.del id (some me)).FriendInv ((me, .removeSecond id black) :: rest) := by
  have rows : comingRows ((me, .removeSecond id black) :: rest) = comingRows rest :=
    List.filterMap_cons_none rfl
  refine ⟨inv.once.filter _, fun r mem => inv.irreflexive r (selectsRow_del.mp mem).1, inv.applies,
    List.forall_mem_cons.mpr ⟨fun x mem => (nomatch mem), inv.others⟩, rows.symm ▸ inv.coming, ?_, ?_,
    ?_, ?_, fun r mem => inv.black r (selectsRow_del.mp mem).1⟩
  · intro r mem
    rw [rows] at mem
    obtain ⟨missing, there, still⟩ := inv.half r mem
    refine ⟨fun mem => missing (selectsRow_del.mp mem).1, selectsRow_del.mpr ⟨there, ?_⟩,
      List.forall_mem_cons.mpr ⟨calm r mem, still⟩⟩
    rw [selectsRow_swap]
    exact (calm r mem).1
  · refine List.forall_mem_cons.mpr ⟨fun r goes mem => ?_, fun t mem r goes mem' => ?_⟩
    · have kept := (selectsRow_del.mp mem).2
      rw [selectsRow_swap] at kept
      nomatch kept.symm.trans goes
    · exact inv.gone t mem r goes (selectsRow_del.mp mem').1
  · intro r mem
    rw [rows]
    obtain ⟨mem, _⟩ := selectsRow_del.mp mem
    obtain both | half | ⟨t, mem, goes⟩ := inv.symmetric r mem
    · cases deleted : selectsRow id (some me) r.swap with
      | true =>
          rw [selectsRow_swap] at deleted
          exact .inr (.inr ⟨_, List.mem_cons_self .., deleted⟩)
      | false => exact .inl (selectsRow_del.mpr ⟨both, deleted⟩)
    · exact .inr (.inl half)
    · exact .inr (.inr ⟨t, List.mem_cons_of_mem _ mem, goes⟩)
  · intro x
    rw [rows]
    have before := inv.count x
    have fewer : (s.del id (some me)).friends.countP (fun r => r.1 = x) ≤
        s.friends.countP (fun r => r.1 = x) := List.filter_sublist.countP_le
    omega

/-- The rows that are deleted last. -/
theorem inv_removeSecond (inv : s.FriendInv ((me, .removeSecond id black) :: rest)) :
    (s.del (some me) id).FriendInv rest := by
  have rows : comingRows ((me, .removeSecond id black) :: rest) = comingRows rest :=
    List.filterMap_cons_none rfl
  refine ⟨inv.once.filter _, fun r mem => inv.irreflexive r (selectsRow_del.mp mem).1, inv.applies,
    (List.forall_mem_cons.mp inv.others).2, rows ▸ inv.coming, ?_, ?_, ?_, ?_,
    fun r mem => inv.black r (selectsRow_del.mp mem).1⟩
  · intro r mem
    obtain ⟨missing, there, still⟩ := inv.half r (rows.symm ▸ mem)
    obtain ⟨calm, still⟩ := List.forall_mem_cons.mp still
    exact ⟨fun mem => missing (selectsRow_del.mp mem).1, selectsRow_del.mpr ⟨there, calm.2⟩, still⟩
  · intro t mem r goes mem'
    exact inv.gone t (List.mem_cons_of_mem _ mem) r goes (selectsRow_del.mp mem').1
  · intro r mem
    obtain ⟨mem, kept⟩ := selectsRow_del.mp mem
    obtain both | half | ⟨t, mem', goes⟩ := inv.symmetric r mem
    · refine .inl (selectsRow_del.mpr ⟨both, Bool.eq_false_iff.mpr fun deleted => ?_⟩)
      -- the row the other way has been deleted first
      have gone := inv.gone _ (List.mem_cons_self ..) r.swap deleted
      rw [Prod.swap_swap] at gone
      exact gone mem
    · exact .inr (.inl (rows ▸ half))
    · obtain rfl | mem' := List.mem_cons.mp mem'
      · cases kept.symm.trans goes
      · exact .inr (.inr ⟨t, mem', goes⟩)
  · intro x
    have before := inv.count x
    rw [rows] at before
    have fewer : (s.del (some me) id).friends.countP (fun r => r.1 = x) ≤
        s.friends.countP (fun r => r.1 = x) := List.filter_sublist.countP_le
    omega

theorem inv_blackAdd {blackuid : UserId} (inv : s.FriendInv rest) (free : (me, blackuid) ∉ s.friends)
    (free' : (blackuid, me) ∉ s.friends) :
    FriendInv { s with blacks := s.blacks ++ [(me, blackuid)] } rest := by
  refine ⟨inv.once, inv.irreflexive, inv.applies, inv.others, inv.coming, inv.half, inv.gone,
    inv.symmetric, inv.count, fun r mem => ?_⟩
  obtain ⟨here, there⟩ := inv.black r mem
  have member : ∀ b, b ∈ s.blacks ++ [(me, blackuid)] ↔ b ∈ s.blacks ∨ b = (me, blackuid) := by
    intro b
    rw [List.mem_append, List.mem_singleton]
  refine ⟨fun listed => ?_, fun listed => ?_⟩
  · obtain listed | rfl := (member r).mp listed
    · exact here listed
    · exact free mem
  · obtain listed | same := (member _).mp listed
    · exact there listed
    · have back : r = (blackuid, me) := Prod.swap_inj.mp same
      exact free' (back ▸ mem)

/-- A request that only asks goes on. -/
theorem inv_goes {pc pc' : FriendPc} (inv : s.FriendInv ((me, pc) :: rest)) (idle : pc.Idle)
    (idle' : pc'.Idle) (others : ∀ x ∈ pc'.others, x ≠ me) : s.FriendInv ((me, pc') :: rest) :=
  inv_cons (inv_tail inv idle) idle' others

theorem mem_upsert {uId id : UserId} {dt : Int} {rows : List FriendApplyRow} {a : FriendApplyRow}
    (mem : a ∈ upsert uId id dt rows) : a = ⟨uId, id, dt⟩ ∨ a ∈ rows := by
  induction rows with
  | nil => exact .inl (List.mem_singleton.mp mem)
  | cons row rows ih =>
      rw [upsert] at mem
      split at mem
      · exact (List.mem_cons.mp mem).imp_right (List.mem_cons_of_mem row)
      · obtain rfl | mem := List.mem_cons.mp mem
        · exact .inr (List.mem_cons_self ..)
        · exact (ih mem).imp_right (List.mem_cons_of_mem row)

theorem inv_delApply {uId id : UserId} (inv : s.FriendInv rest) :
    (s.delApply uId id).FriendInv rest :=
  inv_tables inv rfl (List.Subset.refl _) fun a mem => inv.applies a (List.mem_filter.mp mem).1

theorem idle_plain {pc : FriendPc} (idle : ∀ me, coming (me, pc) = none)
    (still : ∀ me r, going (me, pc) r = false) : pc.Idle := fun me => ⟨idle me, still me⟩

theorem applyCheck_goes {dayZero : Int → Int} {now : Int} {id : UserId} {refuses : Bool}
    {check : ApplyCheck} :
    s.applyCheck dayZero now me id refuses check = .done ∨
      s.applyCheck dayZero now me id refuses check = .applyWrite id ∨
      ∃ next, s.applyCheck dayZero now me id refuses check = .apply id refuses next := by
  cases check with
  | isFriend | received | sent | theirBlack | myBlack | crossing =>
      rw [applyCheck]
      split
      · exact .inl rfl
      · exact .inr (.inr ⟨_, rfl⟩)
  | friends =>
      rw [applyCheck]
      split
      · exact .inl rfl
      · split
        · exact .inl rfl
        · exact .inr (.inr ⟨_, rfl⟩)
  | again =>
      rw [applyCheck]
      split
      · exact .inr (.inl rfl)
      · split
        · exact .inl rfl
        · exact .inr (.inl rfl)

/-- A call of a request keeps what holds, where it does not write on what is out of date. -/
theorem inv_resume {dayZero : Int → Int} {now : Int} {pc : FriendPc} {r : FriendState × FriendPc}
    (perm : s.threads.Perm ((me, pc) :: rest)) (inv : s.FriendInv ((me, pc) :: rest))
    (fresh : s.Fresh me pc) (moved : s.resume dayZero now me pc = some r) :
    r.1.FriendInv ((me, r.2) :: rest) := by
  have mine : ∀ x ∈ pc.others, x ≠ me := inv.others _ (List.mem_cons_self ..)
  have done_ : FriendPc.done.Idle := idle_plain (fun _ => rfl) fun _ _ => rfl
  cases pc with
  | done | applyTarget | addTarget | blackTarget => cases moved
  | apply id refuses check =>
      obtain rfl := Option.some.inj moved
      have idle : (FriendPc.apply id refuses check).Idle := idle_plain (fun _ => rfl) fun _ _ => rfl
      obtain same | same | ⟨next, same⟩ :=
        @applyCheck_goes s me dayZero now id refuses check
      · simp only [same]
        exact inv_goes inv idle done_ fun x mem => (nomatch mem)
      · simp only [same]
        exact inv_goes inv idle (idle_plain (fun _ => rfl) fun _ _ => rfl) mine
      · simp only [same]
        exact inv_goes inv idle (idle_plain (fun _ => rfl) fun _ _ => rfl) mine
  | applyWrite id =>
      obtain rfl := Option.some.inj moved
      have rows : ∀ a ∈ upsert me id now s.applies, a.uId ≠ a.id := by
        intro a mem
        obtain rfl | mem := mem_upsert mem
        · exact (mine id (List.mem_cons_self ..)).symm
        · exact inv.applies a mem
      have goes := inv_goes inv (idle_plain (fun _ => rfl) fun _ _ => rfl) done_
        fun x mem => (nomatch mem)
      exact inv_tables goes rfl (List.Subset.refl _) rows
  | handleAll op =>
      obtain rfl := Option.some.inj moved
      refine inv_goes inv (idle_plain (fun _ => rfl) fun _ _ => rfl) FriendPc.idle_handling ?_
      intro x mem
      obtain ⟨a, applied, rfl⟩ := List.mem_map.mp (FriendPc.others_handling mem)
      obtain ⟨listed, here⟩ := List.mem_filter.mp applied
      exact fun same => inv.applies a listed (same.trans (decide_eq_true_eq.mp here).symm)
  | handleCheck op checked askid askIds =>
      rw [resume] at moved
      split at moved
      · rename_i applied
        obtain rfl := Option.some.inj moved
        refine inv_goes inv (idle_plain (fun _ => rfl) fun _ _ => rfl) FriendPc.idle_checking ?_
        intro x mem
        obtain mem | mem := List.mem_append.mp (FriendPc.others_checking mem)
        · exact mine x mem
        · rw [List.mem_singleton.mp mem]
          obtain ⟨a, mem, here⟩ := List.any_eq_true.mp applied
          obtain ⟨his, own⟩ := decide_eq_true_eq.mp here
          exact fun same => inv.applies a mem (his.trans (same.trans own.symm))
      · obtain rfl := Option.some.inj moved
        exact inv_goes inv (idle_plain (fun _ => rfl) fun _ _ => rfl) done_ fun x mem => (nomatch mem)
  | handleCount askIds =>
      obtain rfl := Option.some.inj moved
      have idle : (FriendPc.handleCount askIds).Idle := idle_plain (fun _ => rfl) fun _ _ => rfl
      simp only
      split
      · exact inv_goes inv idle done_ fun x mem => (nomatch mem)
      · exact inv_goes inv idle FriendPc.idle_agreeing fun x mem =>
          mine x (FriendPc.others_agreeing mem)
  | agree askid askIds myfct =>
      obtain rfl := Option.some.inj moved
      have idle : (FriendPc.agree askid askIds myfct).Idle :=
        idle_plain (fun _ => rfl) fun _ _ => rfl
      simp only
      split
      · exact inv_goes inv idle (idle_plain (fun _ => rfl) fun _ _ => rfl) mine
      · exact inv_goes inv idle (idle_plain (fun _ => rfl) fun _ _ => rfl) mine
  | agreeKnown askid askIds myfct =>
      obtain rfl := Option.some.inj moved
      refine inv_delApply (inv_goes inv (idle_plain (fun _ => rfl) fun _ _ => rfl)
        FriendPc.idle_agreeing fun x mem => ?_)
      exact mine x (List.mem_cons_of_mem _ (FriendPc.others_agreeing mem))
  | agreeCount askid askIds myfct =>
      obtain rfl := Option.some.inj moved
      have idle : (FriendPc.agreeCount askid askIds myfct).Idle :=
        idle_plain (fun _ => rfl) fun _ _ => rfl
      simp only
      split
      · exact inv_goes inv idle (idle_plain (fun _ => rfl) fun _ _ => rfl) mine
      · exact inv_goes inv idle FriendPc.idle_agreeing fun x mem =>
          mine x (List.mem_cons_of_mem _ (FriendPc.others_agreeing mem))
  | addGet askid askIds myfct =>
      obtain rfl := Option.some.inj moved
      have idle : (FriendPc.addGet askid askIds myfct).Idle :=
        idle_plain (fun _ => rfl) fun _ _ => rfl
      simp only
      split
      · exact inv_goes inv idle FriendPc.idle_agreeing fun x mem =>
          mine x (List.mem_cons_of_mem _ (FriendPc.others_agreeing mem))
      · exact inv_goes inv idle (idle_plain (fun _ => rfl) fun _ _ => rfl) mine
  | addFirst askid askIds myfct target =>
      obtain rfl := Option.some.inj moved
      obtain ⟨rfl, free, free', calm, room, room', black, black'⟩ := fresh
      have idle : (FriendPc.addFirst askid askIds myfct true).Idle :=
        idle_plain (fun _ => rfl) fun _ _ => rfl
      have rows : (comingRows s.threads).Perm (comingRows rest) :=
        (perm.filterMap Agent.coming).trans (List.Perm.of_eq (comingRows_idle idle))
      rw [HasRoom, rows.countP_eq] at room room'
      exact inv_addFirst (inv_tail inv idle) mine free free'
        (fun t mem => calm t (perm.mem_iff.mpr (List.mem_cons_of_mem _ mem))) room room' black black'
  | addSecond askid askIds myfct =>
      obtain rfl := Option.some.inj moved
      exact inv_cons (inv_addSecond inv) (idle_plain (fun _ => rfl) fun _ _ => rfl) mine
  | agreeDel askid askIds myfct =>
      obtain rfl := Option.some.inj moved
      have idle : (FriendPc.agreeDel askid askIds myfct).Idle :=
        idle_plain (fun _ => rfl) fun _ _ => rfl
      refine inv_delApply ?_
      simp only
      split
      · exact inv_goes inv idle done_ fun x mem => (nomatch mem)
      · exact inv_goes inv idle FriendPc.idle_agreeing fun x mem =>
          mine x (List.mem_cons_of_mem _ (FriendPc.others_agreeing mem))
  | ignore askid askIds =>
      obtain rfl := Option.some.inj moved
      refine inv_delApply (inv_goes inv (idle_plain (fun _ => rfl) fun _ _ => rfl)
        FriendPc.idle_ignoring fun x mem => ?_)
      rw [FriendPc.others_ignoring] at mem
      cases mem
  | removeGet id black =>
      obtain rfl := Option.some.inj moved
      have idle : (FriendPc.removeGet id black).Idle := idle_plain (fun _ => rfl) fun _ _ => rfl
      simp only
      split
      · exact inv_goes inv idle (idle_plain (fun _ => rfl) fun _ _ => rfl) fun x mem =>
          (nomatch mem)
      · refine inv_goes inv idle FriendPc.idle_removed fun x mem => ?_
        cases black <;> nomatch mem
  | removeFirst id black =>
      obtain rfl := Option.some.inj moved
      have idle : (FriendPc.removeFirst id black).Idle := idle_plain (fun _ => rfl) fun _ _ => rfl
      have rows : (comingRows s.threads).Perm (comingRows rest) :=
        (perm.filterMap Agent.coming).trans (List.Perm.of_eq (comingRows_idle idle))
      exact inv_removeFirst (inv_tail inv idle) fun r mem => fresh r (rows.mem_iff.mpr mem)
  | removeSecond id black =>
      obtain rfl := Option.some.inj moved
      refine inv_cons (inv_removeSecond inv) FriendPc.idle_removed fun x mem => ?_
      cases black <;> nomatch mem
  | blackAdd blackuid =>
      obtain rfl := Option.some.inj moved
      exact inv_blackAdd (inv_goes inv (idle_plain (fun _ => rfl) fun _ _ => rfl)
        (idle_plain (fun _ => rfl) fun _ _ => rfl) fun x mem => (nomatch mem)) fresh.1 fresh.2
  | blackDel blackuid =>
      obtain rfl := Option.some.inj moved
      exact inv_delApply (inv_goes inv (idle_plain (fun _ => rfl) fun _ _ => rfl) done_
        fun x mem => (nomatch mem))
  | unblack blackuid friendapply =>
      obtain rfl := Option.some.inj moved
      have idle : (FriendPc.unblack blackuid friendapply).Idle :=
        idle_plain (fun _ => rfl) fun _ _ => rfl
      have goes : s.FriendInv ((me, if friendapply then FriendPc.applying me blackuid
          else .done) :: rest) := by
        split
        · exact inv_goes inv idle FriendPc.idle_applying FriendPc.others_applying
        · exact inv_goes inv idle done_ fun x mem => (nomatch mem)
      exact inv_tables goes rfl (fun b mem => (List.mem_filter.mp mem).1) inv.applies

theorem threads_perm {i : Nat} {pc : FriendPc} (here : s.threads[i]? = some (me, pc)) :
    s.threads.Perm ((me, pc) :: s.threads.eraseIdx i) := by
  obtain ⟨short, same⟩ := List.getElem?_eq_some_iff.mp here
  rw [← same]
  exact (List.getElem_cons_eraseIdx_perm short).symm

/-- A request that has come further. -/
theorem inv_yield {i : Nat} {pc : FriendPc} {r : FriendState × FriendPc}
    (here : s.threads[i]? = some (me, pc))
    (inv : r.1.FriendInv ((me, r.2) :: s.threads.eraseIdx i))
    (same : r.1.threads = s.threads) : (yield i me r).FriendInv (yield i me r).threads := by
  obtain ⟨short, _⟩ := List.getElem?_eq_some_iff.mp here
  have perm : ((me, r.2) :: s.threads.eraseIdx i).Perm (yield i me r).threads := by
    rw [yield, same]
    exact (List.set_perm_cons_eraseIdx short (me, r.2)).symm
  exact inv_tables (inv.perm perm) rfl (List.Subset.refl _) inv.applies

theorem resume_threads {dayZero : Int → Int} {now : Int} {pc : FriendPc}
    {r : FriendState × FriendPc} (moved : s.resume dayZero now me pc = some r) :
    r.1.threads = s.threads := by
  cases pc with
  | done | applyTarget | addTarget | blackTarget => cases moved
  | handleCheck op checked askid askIds =>
      rw [resume] at moved
      split at moved
      · obtain rfl := Option.some.inj moved
        rfl
      · obtain rfl := Option.some.inj moved
        rfl
  | _ =>
      obtain rfl := Option.some.inj moved
      rfl

theorem asked_plain {request : FriendRequest} : (FriendPc.asked me request).Idle ∧
    ∀ x ∈ (FriendPc.asked me request).others, x ≠ me := by
  have plain : ∀ {pc : FriendPc}, (∀ me, coming (me, pc) = none) →
      (∀ me r, going (me, pc) r = false) → pc.others = [] →
      pc.Idle ∧ ∀ x ∈ pc.others, x ≠ me := by
    intro pc idle still none_
    rw [none_]
    exact ⟨idle_plain idle still, fun x mem => nomatch mem⟩
  cases request with
  | FriendApply id fromType =>
      cases id with
      | none => exact plain (fun _ => rfl) (fun _ _ => rfl) rfl
      | some id =>
          cases fromType with
          | none => exact plain (fun _ => rfl) (fun _ _ => rfl) rfl
          | some fromType => exact ⟨FriendPc.idle_applying, FriendPc.others_applying⟩
  | FriendApplyHandler idArr op isAll =>
      cases isAll with
      | true => exact plain (fun _ => rfl) (fun _ _ => rfl) rfl
      | false =>
          cases idArr with
          | none => exact plain (fun _ => rfl) (fun _ _ => rfl) rfl
          | some idArr =>
              cases idArr with
              | nil => exact plain (fun _ => rfl) (fun _ _ => rfl) rfl
              | cons askid askIds => exact plain (fun _ => rfl) (fun _ _ => rfl) rfl
  | FriendRemove id => exact plain (fun _ => rfl) (fun _ _ => rfl) rfl
  | Friend_AddBlackList blackuid =>
      cases blackuid with
      | none => exact plain (fun _ => rfl) (fun _ _ => rfl) rfl
      | some blackuid => exact plain (fun _ => rfl) (fun _ _ => rfl) rfl
  | Friend_RemoveBlackList blackuid friendapply =>
      cases blackuid with
      | none => exact plain (fun _ => rfl) (fun _ _ => rfl) rfl
      | some blackuid =>
          cases friendapply with
          | none => exact plain (fun _ => rfl) (fun _ _ => rfl) rfl
          | some friendapply => exact plain (fun _ => rfl) (fun _ _ => rfl) rfl

theorem inv_friendStep {dayZero : Int → Int} {e : FriendEvent} (inv : s.FriendInv s.threads)
    (fresh : s.fresh e) (moved : s.step dayZero e = some s') : s'.FriendInv s'.threads := by
  cases e with
  | request me request =>
      obtain rfl := Option.some.inj moved
      obtain ⟨idle, others⟩ := @asked_plain me request
      have new := inv_cons (t := (me, .asked me request)) inv idle others
      exact inv_tables (new.perm (List.perm_append_singleton _ _).symm) rfl (List.Subset.refl _)
        inv.applies
  | target i not_accept_apply =>
      rw [step] at moved
      split at moved
      · rename_i me id here
        obtain rfl := Option.some.inj moved
        refine inv_yield here ?_ rfl
        have goes := inv.perm (threads_perm here)
        have mine := goes.others _ (List.mem_cons_self ..)
        cases not_accept_apply with
        | none =>
            exact inv_goes goes (idle_plain (fun _ => rfl) fun _ _ => rfl)
              (idle_plain (fun _ => rfl) fun _ _ => rfl) fun x mem => (nomatch mem)
        | some refuses =>
            exact inv_goes goes (idle_plain (fun _ => rfl) fun _ _ => rfl)
              (idle_plain (fun _ => rfl) fun _ _ => rfl) mine
      · rename_i me blackuid here
        obtain rfl := Option.some.inj moved
        refine inv_yield here ?_ rfl
        have goes := inv.perm (threads_perm here)
        cases not_accept_apply with
        | none =>
            exact inv_goes goes (idle_plain (fun _ => rfl) fun _ _ => rfl)
              (idle_plain (fun _ => rfl) fun _ _ => rfl) fun x mem => (nomatch mem)
        | some refuses =>
            exact inv_goes goes (idle_plain (fun _ => rfl) fun _ _ => rfl)
              (idle_plain (fun _ => rfl) fun _ _ => rfl) fun x mem => (nomatch mem)
      · cases moved
  | userBase i known =>
      rw [step] at moved
      split at moved
      · rename_i me askid askIds myfct here
        obtain rfl := Option.some.inj moved
        refine inv_yield here ?_ rfl
        have goes := inv.perm (threads_perm here)
        exact inv_goes goes (idle_plain (fun _ => rfl) fun _ _ => rfl)
          (idle_plain (fun _ => rfl) fun _ _ => rfl) (goes.others _ (List.mem_cons_self ..))
      · cases moved
  | resume i now =>
      rw [step] at moved
      obtain ⟨t, here, moved⟩ := Option.bind_eq_some_iff.mp moved
      obtain ⟨r, called, moved⟩ := Option.bind_eq_some_iff.mp moved
      obtain rfl := Option.some.inj moved
      exact inv_yield here (inv_resume (threads_perm here) (inv.perm (threads_perm here))
        (fresh t here) called) (resume_threads called)

/-- What holds of the rows makes them friends as they should be. -/
theorem FriendInv.friendly (inv : s.FriendInv s.threads) : Friendly s := by
  refine ⟨inv.once, fun id mem => inv.irreflexive _ mem rfl, fun id uId mem => ?_, fun id => ?_,
    fun id uId listed => ⟨fun mem => (inv.black _ mem).1 listed,
      fun mem => (inv.black _ mem).2 listed⟩⟩
  · obtain both | half | ⟨t, there, goes⟩ := inv.symmetric _ mem
    · exact .inl both
    · obtain ⟨t, there, comes⟩ := List.mem_filterMap.mp half
      exact .inr ⟨t, there, .inl comes⟩
    · exact .inr ⟨t, there, .inr goes⟩
  · exact (Nat.le_add_right ..).trans (inv.count id)

/-- However requests of users run side by side, the friends are as they should be, where none
writes on what is out of date. -/
theorem run_friendly {dayZero : Int → Int} {es : List FriendEvent}
    (run : Run (step dayZero) fresh start es s) : Friendly s := by
  have first : start.FriendInv start.threads := by
    refine ⟨List.nodup_nil, fun r mem => (nomatch mem), fun a mem => (nomatch mem),
      fun t mem => (nomatch mem), List.nodup_nil, fun r mem => (nomatch mem),
      fun t mem => (nomatch mem), fun r mem => (nomatch mem), fun id => Nat.zero_le _,
      fun r mem => (nomatch mem)⟩
  have inv := run.invariant (fun s => s.FriendInv s.threads) first
    fun _ _ _ inv fresh moved => inv_friendStep inv fresh moved
  exact inv.friendly

end Threads

instance decidableFresh (s : FriendState) (me : UserId) (pc : FriendPc) :
    Decidable (s.Fresh me pc) := by
  cases pc
  all_goals dsimp only [FriendState.Fresh, FriendState.HasRoom]; infer_instance

instance decidableAllFresh (s : FriendState) (e : FriendEvent) :
    Decidable (s.fresh e) := by
  cases e
  all_goals dsimp only [FriendState.fresh]; infer_instance

/-- One day after another. -/
def friendDay (now : Int) : Int := now / 86400

/-- A user has applied to be a friend of another. -/
def applied (i : Nat) (me id : UserId) : List FriendEvent :=
  [.request me (.FriendApply (some id) (some 1)), .target i (some false)] ++
    List.replicate 9 (.resume i 90000)

/-- He is agreed to. -/
def agreed (i : Nat) (me id : UserId) : List FriendEvent :=
  [.request me (.FriendApplyHandler (some [id]) 1 false)] ++ List.replicate 5 (.resume i 90000) ++
    [.userBase i true] ++ List.replicate 3 (.resume i 90000)

/-- Two friends, and the two requests that are over. -/
def befriended : FriendState := ⟨[(1, 2), (2, 1)], [], [], [(1, .done), (2, .done)]⟩

/-- A user applies and is agreed to, and the two are friends. -/
theorem run_friendly_two :
    Run (step friendDay) fresh start (applied 0 1 2 ++ agreed 1 2 1) befriended ∧
      Friendly befriended := by
  have done_ : exec (@guarded _ _ (step friendDay) fresh decidableAllFresh) start
      (applied 0 1 2 ++ agreed 1 2 1) = some befriended := by decide +kernel
  have run := run_of_guarded _ _ _ done_
  exact ⟨run, run_friendly run⟩

/-- Two requests go on in turns. -/
def inTurns (i j n : Nat) : List FriendEvent :=
  (List.replicate n [.resume i 90000, .resume j 90000]).flatten

def bothApply : List FriendEvent :=
  [.request 1 (.FriendApply (some 2) (some 1)), .request 2 (.FriendApply (some 1) (some 1)),
    .target 0 (some false), .target 1 (some false)]

def bothAgree : List FriendEvent :=
  [.request 1 (.FriendApplyHandler (some [2]) 1 false),
    .request 2 (.FriendApplyHandler (some [1]) 1 false)]

def bothKnown : List FriendEvent := [.userBase 2 true, .userBase 3 true]

/-- Two users apply to each other at the same time, and agree to it at the same time. -/
def crossed : List FriendEvent :=
  bothApply ++ inTurns 0 1 9 ++ bothAgree ++ inTurns 2 3 5 ++ bothKnown ++ inTurns 2 3 3

/-- All requests are over, and there are two rows in each direction. -/
def twice : FriendState :=
  ⟨[(2, 1), (1, 2), (1, 2), (2, 1)], [], [], [(1, .done), (2, .done), (1, .done), (2, .done)]⟩

/-- Crossing applications that are agreed to at the same time are agreed to twice. -/
theorem friendly_fails :
    ¬∀ dayZero es s, Run (step dayZero) anyStep start es s → Friendly s := by
  intro friendly
  have done_ : exec (step friendDay) start crossed = some twice := by decide +kernel
  have run := run_of_exec _ _ _ done_
  exact absurd (friendly friendDay crossed twice run).once (by decide)

end FriendState

end HuluLandlord.Agent
