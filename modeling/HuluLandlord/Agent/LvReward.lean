import HuluLandlord.Agent.TitleLv

/-!
The rewards of the levels, claimed in a season or mailed at its end. Requests, logins and
notices of a season run side by side, each from one call of another service to the next. The
levels are computed in steps of their own, so here they may change at any time. A record of
the rewards is a table that those who have read it keep, also once the user has a new one.
-/
namespace HuluLandlord.Agent
open Transition Table

abbrev RecordRef := Nat

/-- A level reward, with the season it is for. -/
structure LvGrant where
  seasonId : Option Nat
  level : Int
  deriving DecidableEq, Repr

/-- Where a request, a login or a notice waits. -/
inductive LvPc
  | created (ref : RecordRef) (idArr : List Int)
  | granting (ref : RecordRef) (grant : LvGrant) (idArr : List Int)
  | granted (ref : RecordRef) (idArr : List Int)
  | getSeasonData
  | getRankUser (seasonId oldSeasonId : Nat) (oldLv : Nat)
  | computeLv (oldSeasonId : Option Nat) (oldLv : Nat) (sDataOld : TitleRow)
      (oldLvRewardRecord : RecordRef)
  | mailing (oldSeasonId : Option Nat) (oldLv : Nat) (sDataOld : TitleRow)
      (oldLvRewardRecord : RecordRef)
  | done
  deriving DecidableEq, Repr

structure SeasonChange where
  oldSeasonId : Option Nat
  seasonId : Nat
  deriving DecidableEq, Repr

/-- `records` are the tables that have been made, `lvRewardRecord` is the user's. -/
structure SeasonUser where
  userInfo : LvInfo
  lvRewardRecord : Option RecordRef
  records : List (List Int)
  threads : List LvPc
  granted : List LvGrant
  resets : List SeasonChange
  mails : List (Nat × List Entry)

inductive SeasonEvent
  | level (u : LvInfo)
  | getLvReward (idArr : List Int)
  | userOnline
  | userSeasonUpdate (seasonId : Nat)
  | seasonData (i : Nat) (seasonId : Option Nat)
  | rankUser (i : Nat) (data : Option Bool)
  | resume (i : Nat)

namespace SeasonUser
variable (cfg : TitleTable)

/-- A table that is made. -/
def newRecord (s : SeasonUser) : SeasonUser := { s with records := s.records ++ [[]] }

def recordOf (s : SeasonUser) (ref : RecordRef) : List Int := (s.records[ref]?).getD []

/-- What `GetLvReward` checks of every id. -/
def checkLvReward (s : SeasonUser) (ref : RecordRef) (idArr : List Int) : Bool :=
  idArr.all fun id => match cfg.rows.find? fun c => (c.level : Int) = id with
    | none => false
    | some sData =>
        (s.userInfo.lv ≥ sData.level || s.userInfo.lvSeasonMax.any fun lv => lv ≥ sData.level) &&
          sData.level_up_rewards ≠ [] && !(s.recordOf ref).contains id

/-- The next id is recorded. -/
def record (s : SeasonUser) (ref : RecordRef) (idArr : List Int) : SeasonUser × LvPc :=
  match idArr with
  | [] => (s, .done)
  | id :: idArr =>
      ({ s with records := s.records.modify ref fun ids => ids ++ [id] },
        .granting ref ⟨s.userInfo.seasonId, id⟩ idArr)

/-- `GetLvReward` once there is a record. -/
def claim (s : SeasonUser) (ref : RecordRef) (idArr : List Int) : SeasonUser × LvPc :=
  if s.checkLvReward cfg ref idArr then s.record ref idArr else (s, .done)

/-- The season is stored; without a row for the old level the handler raises before. -/
def store (s : SeasonUser) (oldSeasonId : Option Nat) (seasonId oldLv : Nat) :
    SeasonUser × LvPc :=
  match cfg.row oldLv with
  | none => (s, .done)
  | some sDataOld =>
      let change (s : SeasonUser) : SeasonUser :=
        { s with
          userInfo := s.userInfo.reset cfg sDataOld seasonId
          resets := s.resets ++ [⟨oldSeasonId, seasonId⟩] }
      match s.lvRewardRecord with
      | none => (change s.newRecord, .computeLv oldSeasonId oldLv sDataOld s.records.length)
      | some ref => (change s, .computeLv oldSeasonId oldLv sDataOld ref)

/-- `checkTitleOver` up to its first call. -/
def checkTitleOver (s : SeasonUser) (seasonId : Nat) : SeasonUser × LvPc :=
  match s.userInfo.seasonId with
  | none =>
      if s.userInfo.lv ≤ 1 then
        ({ s with userInfo := { s.userInfo with seasonId := some seasonId } }, .done)
      else s.store cfg none seasonId s.userInfo.lv
  | some oldSeasonId =>
      if oldSeasonId = seasonId then (s, .done)
      else if s.userInfo.lv ≥ cfg.maxLevel then
        (s, .getRankUser seasonId oldSeasonId s.userInfo.lv)
      else s.store cfg (some oldSeasonId) seasonId s.userInfo.lv

/-- The levels whose rewards have not been claimed. -/
def mailRewardArr (s : SeasonUser) (oldLv : Nat) (ref : RecordRef) : List TitleRow :=
  ((List.range' 1 oldLv).filterMap cfg.row).filter fun sData =>
    sData.level_up_rewards ≠ [] ∧ (sData.level : Int) ∉ s.recordOf ref

/-- What a thread does when its call returns. -/
def resume (s : SeasonUser) : LvPc → Option (SeasonUser × LvPc)
  | .created ref idArr => some (s.claim cfg ref idArr)
  | .granting ref grant idArr => some ({ s with granted := s.granted ++ [grant] }, .granted ref idArr)
  | .granted ref idArr => some (s.record ref idArr)
  | .computeLv oldSeasonId oldLv sDataOld ref =>
      some ({ s.newRecord with lvRewardRecord := some s.records.length },
        .mailing oldSeasonId oldLv sDataOld ref)
  | .mailing oldSeasonId oldLv sDataOld ref =>
      let mailRewardArr := s.mailRewardArr cfg oldLv ref
      let rewards := mailRewardArr.flatMap TitleRow.level_up_rewards
      some ({ s with
        granted := s.granted ++ mailRewardArr.map fun sData => ⟨oldSeasonId, sData.level⟩
        mails := s.mails ++ (if rewards = [] then [] else [(4, rewards)]) ++
          if sDataOld.rewards = [] then [] else [(5, sDataOld.rewards)] }, .done)
  | .getSeasonData | .getRankUser .. | .done => none

/-- A new thread, as far as it has come. -/
def fork (r : SeasonUser × LvPc) : SeasonUser := { r.1 with threads := r.1.threads ++ [r.2] }

/-- A thread, as far as it has come. -/
def yield (i : Nat) (r : SeasonUser × LvPc) : SeasonUser :=
  { r.1 with threads := r.1.threads.set i r.2 }

def step (s : SeasonUser) (e : SeasonEvent) : Option SeasonUser :=
  match e with
  | .level u => some { s with userInfo := { u with seasonId := s.userInfo.seasonId } }
  | .getLvReward idArr => some <| match s.lvRewardRecord with
      | none => fork ({ s.newRecord with lvRewardRecord := some s.records.length },
          .created s.records.length idArr)
      | some ref => fork (s.claim cfg ref idArr)
  | .userOnline => some (fork (s, .getSeasonData))
  | .userSeasonUpdate seasonId => some (fork (s.checkTitleOver cfg seasonId))
  | .seasonData i seasonId => match s.threads[i]? with
      | some .getSeasonData => some <| yield i <| match seasonId with
          | none => (s, .done)
          | some seasonId => s.checkTitleOver cfg seasonId
      | _ => none
  | .rankUser i data => match s.threads[i]? with
      | some (.getRankUser seasonId oldSeasonId oldLv) =>
          let oldLv := if data = some false then oldLv - 1 else oldLv
          some (yield i (s.store cfg (some oldSeasonId) seasonId oldLv))
      | _ => none
  | .resume i => do
      let pc ← s.threads[i]?
      let r ← s.resume cfg pc
      some (yield i r)

/-- A user no reward has been granted to. -/
def start (u : LvInfo) : SeasonUser := ⟨u, none, [], [], [], [], []⟩

end SeasonUser

namespace LvPc

/-- What a request has still to record. -/
def left : LvPc → List (RecordRef × Int)
  | .granting ref _ idArr | .granted ref idArr => idArr.map fun id => (ref, id)
  | _ => []

/-- What a request has recorded and not handed out. -/
def pending : LvPc → List LvGrant
  | .granting _ grant _ => [grant]
  | _ => []

/-- The season a reset closes, until its mails are sent, and the record of it. -/
def closing : LvPc → Option (Option Nat × RecordRef)
  | .computeLv oldSeasonId _ _ ref | .mailing oldSeasonId _ _ ref => some (oldSeasonId, ref)
  | _ => none

/-- A reset that has stored the season and has not made the new record. -/
def renewing : LvPc → Bool
  | .computeLv .. => true
  | _ => false

end LvPc

namespace SeasonUser

/-- A request that passes its checks asks for different levels, none of which another has still
to record, on the record the user has, and no reset is about to replace that. -/
def Clear (cfg : TitleTable) (s : SeasonUser) (ref : RecordRef) (idArr : List Int) : Prop :=
  s.checkLvReward cfg ref idArr = true → idArr.Nodup ∧ s.lvRewardRecord = some ref ∧
    ∀ pc ∈ s.threads, pc.renewing = false ∧ ∀ entry ∈ pc.left, entry.2 ∉ idArr

/-- A season is stored over the one it has been compared with, and is a later one, while no
request has anything left to record. -/
def Final (s : SeasonUser) (oldSeasonId : Option Nat) (seasonId : Nat) : Prop :=
  s.userInfo.seasonId = oldSeasonId ∧ (∀ old ∈ oldSeasonId, old < seasonId) ∧
    ∀ pc ∈ s.threads, pc.left = []

/-- A season that is stored at once. -/
def FinalCheck (s : SeasonUser) (seasonId : Nat) : Prop :=
  s.userInfo.seasonId ≠ some seasonId → s.Final s.userInfo.seasonId seasonId

/-- What a thread needs to go on. -/
def Ready (cfg : TitleTable) (s : SeasonUser) : LvPc → Prop
  | .created ref idArr => s.Clear cfg ref idArr
  | .getRankUser seasonId oldSeasonId _ => s.Final (some oldSeasonId) seasonId
  | _ => True

/-- No request overlaps another on a level, or a reset, and no reset another. -/
def Apart (cfg : TitleTable) (s : SeasonUser) (e : SeasonEvent) : Prop :=
  match e with
  | .getLvReward idArr => ∀ ref ∈ s.lvRewardRecord, s.Clear cfg ref idArr
  | .resume i | .rankUser i _ => ∀ pc ∈ s.threads[i]?, s.Ready cfg pc
  | .userSeasonUpdate seasonId => s.FinalCheck seasonId
  | .seasonData _ data => ∀ seasonId ∈ data, s.FinalCheck seasonId
  | .level _ | .userOnline => True

instance clear_decidable (cfg : TitleTable) (s : SeasonUser) (ref : RecordRef) (idArr : List Int) :
    Decidable (s.Clear cfg ref idArr) :=
  inferInstanceAs (Decidable (_ → _ ∧ _ ∧ ∀ pc ∈ s.threads, _ ∧ ∀ entry ∈ pc.left, _))

instance final_decidable (s : SeasonUser) (oldSeasonId : Option Nat) (seasonId : Nat) :
    Decidable (s.Final oldSeasonId seasonId) :=
  inferInstanceAs (Decidable (_ ∧ (∀ old ∈ oldSeasonId, _) ∧ ∀ pc ∈ s.threads, _))

instance finalCheck_decidable (s : SeasonUser) (seasonId : Nat) :
    Decidable (s.FinalCheck seasonId) :=
  inferInstanceAs (Decidable (_ → _))

instance ready_decidable (cfg : TitleTable) (s : SeasonUser) : (pc : LvPc) →
    Decidable (s.Ready cfg pc)
  | .created ref idArr => clear_decidable cfg s ref idArr
  | .getRankUser seasonId oldSeasonId _ => final_decidable s (some oldSeasonId) seasonId
  | .granting .. | .granted .. | .getSeasonData | .computeLv .. | .mailing .. | .done =>
      isTrue trivial

instance apart_decidable (cfg : TitleTable) (s : SeasonUser) : (e : SeasonEvent) →
    Decidable (s.Apart cfg e)
  | .getLvReward _ => inferInstanceAs (Decidable (∀ ref ∈ s.lvRewardRecord, _))
  | .resume i | .rankUser i _ => inferInstanceAs (Decidable (∀ pc ∈ s.threads[i]?, _))
  | .userSeasonUpdate seasonId => finalCheck_decidable s seasonId
  | .seasonData _ data => inferInstanceAs (Decidable (∀ seasonId ∈ data, _))
  | .level _ | .userOnline => isTrue trivial

/-- Every reward that has been recorded, handed out or not. -/
def due (s : SeasonUser) (threads : List LvPc) : List LvGrant :=
  s.granted ++ threads.flatMap LvPc.pending

/-- What holds of a user and of threads. -/
structure SeasonInv (s : SeasonUser) (threads : List LvPc) : Prop where
  nodup : (s.due threads).Nodup
  known : ∀ g ∈ s.due threads, ∀ k, g.seasonId = some k → ∃ c, s.userInfo.seasonId = some c ∧ k ≤ c
  current : ∀ g ∈ s.due threads, g.seasonId = s.userInfo.seasonId →
    (∀ pc ∈ threads, pc.renewing = false) ∧
      ∃ ref, s.lvRewardRecord = some ref ∧ g.level ∈ s.recordOf ref
  left : (threads.flatMap LvPc.left).Nodup
  fresh : ∀ entry ∈ threads.flatMap LvPc.left, s.lvRewardRecord = some entry.1 ∧
    entry.2 ∉ s.recordOf entry.1 ∧ ∀ pc ∈ threads, pc.renewing = false
  closed : ∀ entry ∈ threads.filterMap LvPc.closing,
    (∃ c, s.userInfo.seasonId = some c ∧ ∀ k ∈ entry.1, k < c) ∧
      ∀ g ∈ s.due threads, g.seasonId = entry.1 → g.level ∈ s.recordOf entry.2
  apart : ((threads.filterMap LvPc.closing).map Prod.fst).Nodup
  made : ∀ ref, s.lvRewardRecord = some ref → ref < s.records.length
  news : ∀ r ∈ s.resets, ∃ c, s.userInfo.seasonId = some c ∧ r.seasonId ≤ c ∧
    ∀ k ∈ r.oldSeasonId, k < c
  once : (s.resets.map SeasonChange.seasonId).Nodup ∧
    (s.resets.map SeasonChange.oldSeasonId).Nodup

section Threads
variable {cfg : TitleTable} {s s' : SeasonUser} {threads others : List LvPc} {pc : LvPc}
  {ref : RecordRef} {idArr : List Int} {u : LvInfo}

theorem SeasonInv.mono (inv : s.SeasonInv threads) (sub : others.Subperm threads) :
    s.SeasonInv others := by
  have flat : ∀ {β : Type} (f : LvPc → List β),
      (others.flatMap f).Subperm (threads.flatMap f) := fun f => by
    obtain ⟨l, perm, sub⟩ := sub
    exact ⟨l.flatMap f, perm.flatMap_right f, sub.flatMap f⟩
  have closing : ∀ {β : Type} (f : LvPc → Option β),
      (others.filterMap f).Subperm (threads.filterMap f) := fun f => by
    obtain ⟨l, perm, sub⟩ := sub
    exact ⟨l.filterMap f, perm.filterMap f, sub.filterMap f⟩
  have nodup : ∀ {β : Type} {l₁ l₂ : List β}, l₁.Subperm l₂ → l₂.Nodup → l₁.Nodup :=
    fun ⟨l, perm, sub⟩ whole => perm.nodup_iff.mp (whole.sublist sub)
  have due : (s.due others).Subperm (s.due threads) :=
    (List.subperm_append_left s.granted).mpr (flat LvPc.pending)
  refine ⟨nodup due inv.nodup, fun g mem => inv.known g (due.subset mem), ?_,
    nodup (flat LvPc.left) inv.left, ?_, ?_, ?_, inv.made, inv.news, inv.once⟩
  · intro g mem here
    obtain ⟨quiet, recorded⟩ := inv.current g (due.subset mem) here
    exact ⟨fun pc mem => quiet pc (sub.subset mem), recorded⟩
  · intro entry mem
    obtain ⟨here, fresh, quiet⟩ := inv.fresh entry ((flat LvPc.left).subset mem)
    exact ⟨here, fresh, fun pc mem => quiet pc (sub.subset mem)⟩
  · intro entry mem
    obtain ⟨past, recorded⟩ := inv.closed entry ((closing LvPc.closing).subset mem)
    exact ⟨past, fun g mem => recorded g (due.subset mem)⟩
  · have apart := inv.apart
    rw [List.map_filterMap] at apart ⊢
    exact nodup (closing _) apart

/-- A thread that has nothing under way. -/
theorem inv_idle (inv : s.SeasonInv others) (left : pc.left = []) (pending : pc.pending = [])
    (closing : pc.closing = none) (renewing : pc.renewing = false) : s.SeasonInv (pc :: others) := by
  have due : s.due (pc :: others) = s.due others := by
    rw [due, List.flatMap_cons, pending]
    rfl
  have lefts : (pc :: others).flatMap LvPc.left = others.flatMap LvPc.left := by
    rw [List.flatMap_cons, left]
    rfl
  have closings : (pc :: others).filterMap LvPc.closing = others.filterMap LvPc.closing := by
    rw [List.filterMap_cons, closing]
  have quiet : (∀ pc ∈ others, pc.renewing = false) →
      ∀ other ∈ pc :: others, other.renewing = false := fun all =>
    List.forall_mem_cons.mpr ⟨renewing, all⟩
  refine ⟨due ▸ inv.nodup, due ▸ inv.known, ?_, lefts ▸ inv.left, ?_, ?_, closings ▸ inv.apart,
    inv.made, inv.news, inv.once⟩
  · intro g mem here
    obtain ⟨all, recorded⟩ := inv.current g (due ▸ mem) here
    exact ⟨quiet all, recorded⟩
  · intro entry mem
    obtain ⟨here, fresh, all⟩ := inv.fresh entry (lefts ▸ mem)
    exact ⟨here, fresh, quiet all⟩
  · rw [closings, due]
    exact inv.closed

theorem recordOf_newRecord (ref : RecordRef) : s.newRecord.recordOf ref = s.recordOf ref := by
  have appended : (s.records ++ [[]])[ref]?.getD [] = s.records[ref]?.getD [] := by
    by_cases old : ref < s.records.length
    · rw [List.getElem?_append_left old]
    · rw [List.getElem?_append_right (not_lt.mp old), List.getElem?_eq_none (not_lt.mp old)]
      cases ref - s.records.length with
      | zero => rfl
      | succ n => rfl
  exact appended

/-- One id more in the record. -/
theorem recordOf_modify (short : ref < s.records.length) (id : Int) (other : RecordRef) :
    ({ s with records := s.records.modify ref fun ids => ids ++ [id] } : SeasonUser).recordOf other =
      if ref = other then s.recordOf ref ++ [id] else s.recordOf other := by
  simp only [recordOf, List.getElem?_modify]
  by_cases here : ref = other
  · subst here
    simp only [if_true, List.getElem?_eq_getElem short, Option.getD_some]
    rfl
  · simp only [here, if_false]
    cases s.records[other]? <;> rfl

/-- The season of a reset that has not sent its mails is over. -/
theorem closed_past {entry : Option Nat × RecordRef} (inv : s.SeasonInv others)
    (mem : entry ∈ others.filterMap LvPc.closing) : entry.1 ≠ s.userInfo.seasonId := by
  obtain ⟨⟨c, now, past⟩, _⟩ := inv.closed entry mem
  intro same
  exact lt_irrefl c (past c (same.trans now))

theorem inv_record (inv : s.SeasonInv others) (here : s.lvRewardRecord = some ref)
    (different : idArr.Nodup) (fresh : ∀ id ∈ idArr, id ∉ s.recordOf ref)
    (clear : ∀ pc ∈ others, pc.renewing = false ∧ ∀ entry ∈ pc.left, entry.2 ∉ idArr) :
    (s.record ref idArr).1.SeasonInv ((s.record ref idArr).2 :: others) := by
  cases idArr with
  | nil => exact inv_idle inv rfl rfl rfl rfl
  | cons id idArr =>
      obtain ⟨unlisted, different⟩ := List.nodup_cons.mp different
      have recordOf : ∀ other, (s.record ref (id :: idArr)).1.recordOf other =
          if ref = other then s.recordOf ref ++ [id] else s.recordOf other :=
        recordOf_modify (inv.made ref here) id
      have kept : ∀ other level, level ∈ s.recordOf other →
          level ∈ (s.record ref (id :: idArr)).1.recordOf other := by
        intro other level mem
        rw [recordOf]
        split
        · rename_i same
          exact List.mem_append_left _ (same ▸ mem)
        · exact mem
      have quiet : ∀ other ∈ LvPc.granting ref ⟨s.userInfo.seasonId, id⟩ idArr :: others,
          other.renewing = false :=
        List.forall_mem_cons.mpr ⟨rfl, fun pc mem => (clear pc mem).1⟩
      -- the new one is not among those that are due, or it would be in the record
      have new : (⟨s.userInfo.seasonId, id⟩ : LvGrant) ∉ s.due others := fun old => by
        obtain ⟨_, ref', here', recorded⟩ := inv.current _ old rfl
        obtain rfl := Option.some.inj (here.symm.trans here')
        exact fresh id List.mem_cons_self recorded
      have due : ∀ g, g ∈ s.due (LvPc.granting ref ⟨s.userInfo.seasonId, id⟩ idArr :: others) ↔
          g = ⟨s.userInfo.seasonId, id⟩ ∨ g ∈ s.due others := fun g =>
        List.perm_middle.mem_iff.trans List.mem_cons
      refine ⟨?_, ?_, ?_, ?_, ?_, ?_, inv.apart, ?_, inv.news, inv.once⟩
      · exact List.perm_middle.nodup_iff.mpr (List.nodup_cons.mpr ⟨new, inv.nodup⟩)
      · intro g mem k same
        obtain rfl | old := (due g).mp mem
        · exact ⟨k, same, le_refl k⟩
        · exact inv.known g old k same
      · intro g mem now
        refine ⟨quiet, ?_⟩
        obtain rfl | old := (due g).mp mem
        · refine ⟨ref, here, ?_⟩
          rw [recordOf, if_pos rfl]
          exact List.mem_append_right _ (List.mem_singleton_self id)
        · obtain ⟨_, ref', here', recorded⟩ := inv.current g old now
          exact ⟨ref', here', kept ref' g.level recorded⟩
      · refine List.nodup_append.mpr
          ⟨different.map fun a b same => (Prod.mk.inj same).2, inv.left, ?_⟩
        rintro entry mine _ theirs rfl
        obtain ⟨x, mem, rfl⟩ := List.mem_map.mp mine
        obtain ⟨pc, memPc, memLeft⟩ := List.mem_flatMap.mp theirs
        exact (clear pc memPc).2 _ memLeft (List.mem_cons_of_mem id mem)
      · intro entry mem
        obtain mine | theirs := List.mem_append.mp mem
        · obtain ⟨x, memX, rfl⟩ := List.mem_map.mp mine
          refine ⟨here, ?_, quiet⟩
          rw [recordOf, if_pos rfl, List.mem_append, List.mem_singleton]
          rintro (old | rfl)
          · exact fresh x (List.mem_cons_of_mem id memX) old
          · exact unlisted memX
        · obtain ⟨here', fresh', _⟩ := inv.fresh entry theirs
          obtain ⟨pc, memPc, memLeft⟩ := List.mem_flatMap.mp theirs
          refine ⟨here', ?_, quiet⟩
          rw [recordOf]
          split
          · rename_i same
            rw [List.mem_append, List.mem_singleton, not_or]
            exact ⟨same ▸ fresh', fun same =>
              (clear pc memPc).2 entry memLeft (same ▸ List.mem_cons_self)⟩
          · exact fresh'
      · intro entry mem
        obtain ⟨past, recorded⟩ := inv.closed entry mem
        refine ⟨past, fun g memG same => ?_⟩
        obtain rfl | old := (due g).mp memG
        · exact absurd same.symm (closed_past inv mem)
        · exact kept _ _ (recorded g old same)
      · intro ref' here'
        have length : (s.record ref (id :: idArr)).1.records.length = s.records.length :=
          List.length_modify ..
        exact length ▸ inv.made ref' here'

theorem inv_claim (inv : s.SeasonInv others) (clear : s.checkLvReward cfg ref idArr = true →
      idArr.Nodup ∧ s.lvRewardRecord = some ref ∧
        ∀ pc ∈ others, pc.renewing = false ∧ ∀ entry ∈ pc.left, entry.2 ∉ idArr) :
    (s.claim cfg ref idArr).1.SeasonInv ((s.claim cfg ref idArr).2 :: others) := by
  rw [claim]
  split
  · rename_i checked
    obtain ⟨different, here, clear⟩ := clear checked
    refine inv_record inv here different (fun id mem => ?_) clear
    have passed := List.all_eq_true.mp checked id mem
    split at passed
    · cases passed
    · rw [Bool.and_eq_true] at passed
      simpa using passed.2
  · exact inv_idle inv rfl rfl rfl rfl

/-- A reward that has been recorded is handed out. -/
theorem inv_granting {grant : LvGrant} (inv : s.SeasonInv (.granting ref grant idArr :: others)) :
    { s with granted := s.granted ++ [grant] }.SeasonInv (.granted ref idArr :: others) := by
  have due : { s with granted := s.granted ++ [grant] }.due (.granted ref idArr :: others) =
      s.due (.granting ref grant idArr :: others) := List.append_assoc s.granted [grant] _
  have quiet : (∀ pc ∈ LvPc.granting ref grant idArr :: others, pc.renewing = false) →
      ∀ pc ∈ LvPc.granted ref idArr :: others, pc.renewing = false := fun all =>
    List.forall_mem_cons.mpr ⟨rfl, (List.forall_mem_cons.mp all).2⟩
  refine ⟨due ▸ inv.nodup, due ▸ inv.known, fun g mem here => ?_, inv.left, fun entry mem => ?_, ?_,
    inv.apart, inv.made, inv.news, inv.once⟩
  · obtain ⟨all, recorded⟩ := inv.current g (due ▸ mem) here
    exact ⟨quiet all, recorded⟩
  · obtain ⟨here, fresh, all⟩ := inv.fresh entry mem
    exact ⟨here, fresh, quiet all⟩
  · rw [due]
    exact inv.closed

/-- The next level of a request whose last one has been handed out. -/
theorem inv_granted (inv : s.SeasonInv (.granted ref idArr :: others)) :
    (s.record ref idArr).1.SeasonInv ((s.record ref idArr).2 :: others) := by
  have inv' : s.SeasonInv others := inv.mono (List.sublist_cons_self _ others).subperm
  cases idArr with
  | nil => exact inv_idle inv' rfl rfl rfl rfl
  | cons id rest =>
      have mine : ∀ x ∈ id :: rest,
          (ref, x) ∈ (LvPc.granted ref (id :: rest) :: others).flatMap LvPc.left := fun x mem =>
        List.mem_append_left _ (List.mem_map_of_mem mem)
      obtain ⟨here, _, quiet⟩ := inv.fresh _ (mine id List.mem_cons_self)
      obtain ⟨different, _, separate⟩ := List.nodup_append.mp inv.left
      refine inv_record inv' here different.of_map (fun x mem => ?_) fun pc mem => ?_
      · exact (inv.fresh _ (mine x mem)).2.1
      · refine ⟨quiet pc (List.mem_cons_of_mem _ mem), fun entry memLeft memIds => ?_⟩
        have theirs := List.mem_flatMap.mpr ⟨pc, mem, memLeft⟩
        have same : entry.1 = ref := by
          obtain ⟨here', _⟩ := inv.fresh entry (List.mem_append_right _ theirs)
          exact Option.some.inj (here'.symm.trans here)
        exact separate _ (List.mem_map_of_mem memIds) _ theirs (Prod.ext same.symm rfl)

/-- The new season: what was due is due for an earlier one, and is in the record that the reset
has taken. -/
theorem inv_stored (inv : s.SeasonInv others) {oldSeasonId : Option Nat} {seasonId oldLv : Nat}
    {sDataOld : TitleRow} (final : s.userInfo.seasonId = oldSeasonId ∧
      (∀ old ∈ oldSeasonId, old < seasonId) ∧ ∀ pc ∈ others, pc.left = [])
    (taken : ∀ ref', s.lvRewardRecord = some ref' → ref = ref')
    (now : u.seasonId = some seasonId) :
    SeasonInv { s with userInfo := u, resets := s.resets ++ [⟨oldSeasonId, seasonId⟩] }
      (.computeLv oldSeasonId oldLv sDataOld ref :: others) := by
  obtain ⟨before, later, none_left⟩ := final
  have past : ∀ c, s.userInfo.seasonId = some c → c < seasonId := fun c here =>
    later c (before ▸ here)
  have unknown : ∀ g ∈ s.due others, g.seasonId ≠ some seasonId := fun g mem same => by
    obtain ⟨c, here, le⟩ := inv.known g mem seasonId same
    exact absurd (past c here) (not_lt.mpr le)
  have nothing : others.flatMap LvPc.left = [] := List.flatMap_eq_nil_iff.mpr none_left
  refine ⟨inv.nodup, fun g mem k same => ?_, fun g mem same => ?_, ?_, fun entry mem => ?_, ?_, ?_,
    inv.made, fun r mem => ?_, ?_⟩
  · obtain ⟨c, here, le⟩ := inv.known g mem k same
    exact ⟨seasonId, now, le.trans (past c here).le⟩
  · exact absurd (same.trans now) (unknown g mem)
  · exact inv.left
  · exact absurd (nothing ▸ mem) List.not_mem_nil
  · refine List.forall_mem_cons.mpr ⟨⟨⟨seasonId, now, later⟩, fun g mem same => ?_⟩, ?_⟩
    · obtain ⟨_, ref', here, recorded⟩ := inv.current g mem (same.trans before.symm)
      exact taken ref' here ▸ recorded
    · intro entry mem
      obtain ⟨⟨c, here, over_⟩, recorded⟩ := inv.closed entry mem
      exact ⟨⟨seasonId, now, fun k same => (over_ k same).trans (past c here)⟩, recorded⟩
  · refine List.nodup_cons.mpr ⟨fun mem => ?_, inv.apart⟩
    obtain ⟨entry, memEntry, same⟩ := List.mem_map.mp mem
    exact closed_past inv memEntry (same.trans before.symm)
  · obtain old | new := List.mem_append.mp mem
    · obtain ⟨c, here, le, over_⟩ := inv.news r old
      exact ⟨seasonId, now, le.trans (past c here).le, fun k same => (over_ k same).trans (past c here)⟩
    · obtain rfl := List.mem_singleton.mp new
      exact ⟨seasonId, now, le_refl seasonId, later⟩
  · rw [List.map_append, List.map_append]
    refine ⟨List.nodup_append.mpr ⟨inv.once.1, List.nodup_singleton _, ?_⟩,
      List.nodup_append.mpr ⟨inv.once.2, List.nodup_singleton _, ?_⟩⟩
    · rintro _ old _ new rfl
      obtain ⟨r, mem, same⟩ := List.mem_map.mp old
      obtain ⟨c, here, le, _⟩ := inv.news r mem
      have less := past c here
      have new : r.seasonId = seasonId := same.trans (List.mem_singleton.mp new)
      omega
    · rintro _ old _ new rfl
      obtain ⟨r, mem, same⟩ := List.mem_map.mp old
      obtain ⟨c, here, _, over_⟩ := inv.news r mem
      have new : r.oldSeasonId = oldSeasonId := same.trans (List.mem_singleton.mp new)
      exact absurd (over_ c (new.trans (before.symm.trans here))) (lt_irrefl c)

theorem inv_newRecord (inv : s.SeasonInv others) : s.newRecord.SeasonInv others := by
  refine ⟨inv.nodup, inv.known, fun g mem same => ?_, inv.left, fun entry mem => ?_,
    fun entry mem => ?_, inv.apart, fun ref here => ?_, inv.news, inv.once⟩
  · obtain ⟨quiet, ref, here, recorded⟩ := inv.current g mem same
    exact ⟨quiet, ref, here, (recordOf_newRecord ref).symm ▸ recorded⟩
  · obtain ⟨here, fresh, quiet⟩ := inv.fresh entry mem
    exact ⟨here, (recordOf_newRecord entry.1).symm ▸ fresh, quiet⟩
  · obtain ⟨past, recorded⟩ := inv.closed entry mem
    exact ⟨past, fun g memG same => (recordOf_newRecord entry.2).symm ▸ recorded g memG same⟩
  · have length : s.newRecord.records.length = s.records.length + 1 := List.length_append
    exact length ▸ (inv.made ref here).trans (Nat.lt_succ_self _)

theorem inv_store (inv : s.SeasonInv others) {oldSeasonId : Option Nat} {seasonId oldLv : Nat}
    (final : s.userInfo.seasonId = oldSeasonId ∧ (∀ old ∈ oldSeasonId, old < seasonId) ∧
      ∀ pc ∈ others, pc.left = []) :
    (s.store cfg oldSeasonId seasonId oldLv).1.SeasonInv
      ((s.store cfg oldSeasonId seasonId oldLv).2 :: others) := by
  rw [store]
  cases cfg.row oldLv with
  | none => exact inv_idle inv rfl rfl rfl rfl
  | some sDataOld =>
      have now : (s.userInfo.reset cfg sDataOld seasonId).seasonId = some seasonId := rfl
      cases here : s.lvRewardRecord with
      | none => exact inv_stored (inv_newRecord inv) final (fun ref' here' => by
          nomatch here.symm.trans here') now
      | some ref => exact inv_stored inv final (fun ref' here' =>
          Option.some.inj (here.symm.trans here')) now

/-- The new record. While a reset is about to make it, nothing is due for the new season. -/
theorem inv_renewed {oldSeasonId : Option Nat} {oldLv : Nat} {sDataOld : TitleRow}
    (inv : s.SeasonInv (.computeLv oldSeasonId oldLv sDataOld ref :: others)) :
    SeasonInv { s.newRecord with lvRewardRecord := some s.records.length }
      (.mailing oldSeasonId oldLv sDataOld ref :: others) := by
  have inv' := inv_newRecord inv
  have about : ¬∀ pc ∈ LvPc.computeLv oldSeasonId oldLv sDataOld ref :: others,
      pc.renewing = false := fun all => nomatch all _ List.mem_cons_self
  refine ⟨inv'.nodup, inv'.known, fun g mem same => ?_, inv'.left, fun entry mem => ?_, inv'.closed,
    inv'.apart, fun ref' here => ?_, inv'.news, inv'.once⟩
  · exact absurd (inv'.current g mem same).1 about
  · exact absurd (inv'.fresh entry mem).2.2 about
  · obtain rfl := Option.some.inj here
    have length : s.newRecord.records.length = s.records.length + 1 := List.length_append
    exact length ▸ Nat.lt_succ_self _

/-- The mails of a reset bring what is not in the record of the season, so is not due. -/
theorem inv_mailing {oldSeasonId : Option Nat} {oldLv : Nat} {sDataOld : TitleRow}
    {mails : List (Nat × List Entry)}
    (inv : s.SeasonInv (.mailing oldSeasonId oldLv sDataOld ref :: others)) :
    SeasonInv { s with
      granted := s.granted ++ (s.mailRewardArr cfg oldLv ref).map fun sData =>
        ⟨oldSeasonId, sData.level⟩
      mails := mails } (.done :: others) := by
  generalize rows : s.mailRewardArr cfg oldLv ref = arr
  obtain ⟨⟨⟨c, now, later⟩, recorded⟩, _⟩ := List.forall_mem_cons.mp inv.closed
  obtain ⟨separate, _⟩ := List.nodup_cons.mp inv.apart
  have past : oldSeasonId ≠ s.userInfo.seasonId := fun same =>
    lt_irrefl c (later c (same.trans now))
  have mailed : ∀ g ∈ arr.map fun sData => (⟨oldSeasonId, sData.level⟩ : LvGrant),
      g.seasonId = oldSeasonId ∧ g.level ∉ s.recordOf ref := by
    intro g mem
    obtain ⟨sData, memRow, rfl⟩ := List.mem_map.mp mem
    rw [← rows, mailRewardArr, List.mem_filter] at memRow
    exact ⟨rfl, (of_decide_eq_true memRow.2).2⟩
  have different : (arr.map fun sData => (⟨oldSeasonId, sData.level⟩ : LvGrant)).Nodup := by
    have levels : (((List.range' 1 oldLv).filterMap cfg.row).map TitleRow.level).Nodup := by
      rw [List.map_filterMap]
      refine List.Nodup.filterMap (fun i j level memI memJ => ?_) List.nodup_range'
      obtain ⟨a, rowA, sameA⟩ := Option.map_eq_some_iff.mp memI
      obtain ⟨b, rowB, sameB⟩ := Option.map_eq_some_iff.mp memJ
      rw [← (TitleTable.row_some rowA).2, ← (TitleTable.row_some rowB).2, sameA, sameB]
    have few : (arr.map TitleRow.level).Nodup := by
      rw [← rows, mailRewardArr]
      exact levels.sublist (List.filter_sublist.map _)
    have grants := few.map (f := fun l : Nat => (⟨oldSeasonId, l⟩ : LvGrant)) fun a b same =>
      Int.ofNat.inj (LvGrant.mk.inj same).2
    rwa [List.map_map] at grants
  have due : ∀ g, g ∈ SeasonUser.due { s with
      granted := s.granted ++ arr.map fun sData => ⟨oldSeasonId, sData.level⟩
      mails := mails } (.done :: others) ↔
      g ∈ s.due (.mailing oldSeasonId oldLv sDataOld ref :: others) ∨
        g ∈ arr.map fun sData => (⟨oldSeasonId, sData.level⟩ : LvGrant) := by
    intro g
    simp only [SeasonUser.due, List.flatMap_cons, LvPc.pending, List.nil_append, List.mem_append]
    tauto
  have quiet : (∀ pc ∈ LvPc.mailing oldSeasonId oldLv sDataOld ref :: others, pc.renewing = false) →
      ∀ pc ∈ LvPc.done :: others, pc.renewing = false := fun all =>
    List.forall_mem_cons.mpr ⟨rfl, (List.forall_mem_cons.mp all).2⟩
  refine ⟨?_, fun g mem k same => ?_, fun g mem same => ?_, inv.left, fun entry mem => ?_,
    fun entry mem => ?_, ?_, inv.made, inv.news, inv.once⟩
  · have all : ((arr.map fun sData => (⟨oldSeasonId, sData.level⟩ : LvGrant)) ++
        s.due (.mailing oldSeasonId oldLv sDataOld ref :: others)).Nodup := by
      refine List.nodup_append.mpr ⟨different, inv.nodup, ?_⟩
      rintro g new _ old rfl
      obtain ⟨here, fresh⟩ := mailed g new
      exact fresh (recorded g old here)
    have moved : (SeasonUser.due { s with
        granted := s.granted ++ arr.map fun sData => ⟨oldSeasonId, sData.level⟩
        mails := mails } (.done :: others)).Perm
        ((arr.map fun sData => (⟨oldSeasonId, sData.level⟩ : LvGrant)) ++
          s.due (.mailing oldSeasonId oldLv sDataOld ref :: others)) := by
      simp only [SeasonUser.due, List.flatMap_cons, LvPc.pending, List.nil_append]
      rw [List.append_assoc]
      exact List.perm_append_comm_assoc _ _ _
    exact moved.nodup_iff.mpr all
  · obtain old | new := (due g).mp mem
    · exact inv.known g old k same
    · exact ⟨c, now, (later k ((mailed g new).1.symm.trans same)).le⟩
  · obtain old | new := (due g).mp mem
    · obtain ⟨all, here⟩ := inv.current g old same
      exact ⟨quiet all, here⟩
    · exact absurd ((mailed g new).1.symm.trans same) past
  · obtain ⟨here, fresh, all⟩ := inv.fresh entry mem
    exact ⟨here, fresh, quiet all⟩
  · obtain ⟨past, recorded⟩ := inv.closed entry (List.mem_cons_of_mem _ mem)
    refine ⟨past, fun g memG same => ?_⟩
    obtain old | new := (due g).mp memG
    · exact recorded g old same
    · exact absurd (List.mem_map.mpr ⟨entry, mem, same.symm.trans (mailed g new).1⟩) separate
  · exact (List.nodup_cons.mp inv.apart).2

/-- The levels move without the season. -/
theorem inv_level (inv : s.SeasonInv threads) (same : u.seasonId = s.userInfo.seasonId) :
    SeasonInv { s with userInfo := u } threads := by
  refine ⟨inv.nodup, ?_, ?_, inv.left, inv.fresh, ?_, inv.apart, inv.made, ?_, inv.once⟩
  · exact same.symm ▸ inv.known
  · exact fun g mem here => inv.current g mem (here.trans same)
  · exact fun entry mem => ⟨same.symm ▸ (inv.closed entry mem).1, (inv.closed entry mem).2⟩
  · exact same.symm ▸ inv.news

/-- The first season of a user. -/
theorem inv_first (inv : s.SeasonInv threads) (none_ : s.userInfo.seasonId = none) {seasonId : Nat}
    (now : u.seasonId = some seasonId) : SeasonInv { s with userInfo := u } threads := by
  have absent : ∀ {P : Nat → Prop}, ¬∃ c, s.userInfo.seasonId = some c ∧ P c :=
    fun ⟨c, here, _⟩ => nomatch none_.symm.trans here
  refine ⟨inv.nodup, fun g mem k same => absurd (inv.known g mem k same) absent,
    fun g mem same => absurd (inv.known g mem seasonId (same.trans now)) absent, inv.left, inv.fresh,
    fun entry mem => absurd (inv.closed entry mem).1 absent, inv.apart, inv.made,
    fun r mem => absurd (inv.news r mem) absent, inv.once⟩

theorem inv_compare (inv : s.SeasonInv others) {seasonId : Nat}
    (final : s.userInfo.seasonId ≠ some seasonId →
      s.userInfo.seasonId = s.userInfo.seasonId ∧
        (∀ old ∈ s.userInfo.seasonId, old < seasonId) ∧ ∀ pc ∈ others, pc.left = []) :
    (s.checkTitleOver cfg seasonId).1.SeasonInv ((s.checkTitleOver cfg seasonId).2 :: others) := by
  rw [checkTitleOver]
  cases before : s.userInfo.seasonId with
  | none =>
      simp only
      split
      · exact inv_idle (inv_first inv before rfl) rfl rfl rfl rfl
      · exact inv_store inv (before ▸ final (before ▸ nofun))
  | some oldSeasonId =>
      simp only
      split
      · exact inv_idle inv rfl rfl rfl rfl
      · rename_i other
        split
        · exact inv_idle inv rfl rfl rfl rfl
        · exact inv_store inv (before ▸ final fun same => other (Option.some.inj (before.symm.trans same)))

theorem threads_record : (s.record ref idArr).1.threads = s.threads := by
  cases idArr <;> rfl

theorem threads_claim : (s.claim cfg ref idArr).1.threads = s.threads := by
  rw [claim]
  split
  · exact threads_record
  · rfl

theorem threads_store {oldSeasonId : Option Nat} {seasonId oldLv : Nat} :
    (s.store cfg oldSeasonId seasonId oldLv).1.threads = s.threads := by
  rw [store]
  cases cfg.row oldLv with
  | none => rfl
  | some sDataOld => cases s.lvRewardRecord <;> rfl

theorem threads_checkTitleOver {seasonId : Nat} :
    (s.checkTitleOver cfg seasonId).1.threads = s.threads := by
  rw [checkTitleOver]
  cases s.userInfo.seasonId with
  | none =>
      simp only
      split
      · rfl
      · exact threads_store
  | some oldSeasonId =>
      simp only
      split
      · rfl
      · split
        · rfl
        · exact threads_store

theorem inv_threads (inv : s.SeasonInv threads) (l : List LvPc) :
    SeasonInv { s with threads := l } threads :=
  ⟨inv.nodup, inv.known, inv.current, inv.left, inv.fresh, inv.closed, inv.apart, inv.made, inv.news,
    inv.once⟩

theorem inv_fork {r : SeasonUser × LvPc} (inv : r.1.SeasonInv (r.2 :: s.threads))
    (same : r.1.threads = s.threads) : (fork r).SeasonInv (fork r).threads := by
  refine (inv_threads inv _).mono ?_
  have appended : (fork r).threads = s.threads ++ [r.2] := congrArg (· ++ [r.2]) same
  rw [appended]
  exact (List.perm_append_singleton _ _).subperm

theorem inv_yield {r : SeasonUser × LvPc} {i : Nat} (found : s.threads[i]? = some pc)
    (inv : s.SeasonInv s.threads)
    (moved : ∀ others, s.threads.Perm (pc :: others) → s.SeasonInv (pc :: others) →
      r.1.SeasonInv (r.2 :: others)) (same : r.1.threads = s.threads) :
    (yield i r).SeasonInv (yield i r).threads := by
  obtain ⟨short, rfl⟩ := List.getElem?_eq_some_iff.mp found
  have split := (List.getElem_cons_eraseIdx_perm short).symm
  refine (inv_threads (moved _ split (inv.mono split.symm.subperm)) _).mono ?_
  have written : (yield i r).threads = s.threads.set i r.2 := congrArg (·.set i r.2) same
  rw [written]
  exact (List.set_perm_cons_eraseIdx short _).subperm

theorem inv_resume {r : SeasonUser × LvPc} {i : Nat} (inv : s.SeasonInv s.threads)
    (apart : s.Apart cfg (.resume i)) (found : s.threads[i]? = some pc)
    (moved : s.resume cfg pc = some r) : (yield i r).SeasonInv (yield i r).threads := by
  have guard := apart pc found
  refine inv_yield found inv (fun others perm inv' => ?_) ?_
  · have inv'' : s.SeasonInv others := inv'.mono (List.sublist_cons_self _ others).subperm
    cases pc with
    | created ref idArr =>
        obtain rfl := Option.some.inj moved
        refine inv_claim inv'' fun checked => ?_
        obtain ⟨different, here, clear⟩ := guard checked
        exact ⟨different, here, fun pc mem =>
          clear pc (perm.symm.subset (List.mem_cons_of_mem _ mem))⟩
    | granting ref grant idArr =>
        obtain rfl := Option.some.inj moved
        exact inv_granting inv'
    | granted ref idArr =>
        obtain rfl := Option.some.inj moved
        exact inv_granted inv'
    | computeLv oldSeasonId oldLv sDataOld ref =>
        obtain rfl := Option.some.inj moved
        exact inv_renewed inv'
    | mailing oldSeasonId oldLv sDataOld ref =>
        obtain rfl := Option.some.inj moved
        exact inv_mailing inv'
    | getSeasonData => cases moved
    | getRankUser => cases moved
    | done => cases moved
  · cases pc with
    | created ref idArr =>
        obtain rfl := Option.some.inj moved
        exact threads_claim
    | granted ref idArr =>
        obtain rfl := Option.some.inj moved
        exact threads_record
    | granting | computeLv | mailing =>
        obtain rfl := Option.some.inj moved
        rfl
    | getSeasonData => cases moved
    | getRankUser => cases moved
    | done => cases moved

theorem inv_seasonStep {e : SeasonEvent} (inv : s.SeasonInv s.threads) (apart : s.Apart cfg e)
    (moved : s.step cfg e = some s') : s'.SeasonInv s'.threads := by
  cases e with
  | level u =>
      obtain rfl := Option.some.inj moved
      exact inv_level inv rfl
  | getLvReward idArr =>
      obtain rfl := Option.some.inj moved
      cases here : s.lvRewardRecord with
      | none =>
          have missing : ∀ {P : RecordRef → Prop}, ¬∃ ref, s.lvRewardRecord = some ref ∧ P ref :=
            fun ⟨ref, some_, _⟩ => nomatch here.symm.trans some_
          have inv' := inv_newRecord inv
          have made : SeasonInv { s.newRecord with lvRewardRecord := some s.records.length }
              s.threads := by
            refine ⟨inv'.nodup, inv'.known, fun g mem same => ?_, inv'.left, fun entry mem => ?_,
              inv'.closed, inv'.apart, fun ref some_ => ?_, inv'.news, inv'.once⟩
            · exact absurd (inv'.current g mem same).2 missing
            · cases here.symm.trans (inv'.fresh entry mem).1
            · obtain rfl := Option.some.inj some_
              have length : s.newRecord.records.length = s.records.length + 1 := List.length_append
              exact length ▸ Nat.lt_succ_self _
          exact inv_fork (inv_idle made rfl rfl rfl rfl) rfl
      | some ref =>
          exact inv_fork (inv_claim inv (apart ref here)) threads_claim
  | userOnline =>
      obtain rfl := Option.some.inj moved
      exact inv_fork (inv_idle inv rfl rfl rfl rfl) rfl
  | userSeasonUpdate seasonId =>
      obtain rfl := Option.some.inj moved
      exact inv_fork (inv_compare inv apart) threads_checkTitleOver
  | seasonData i data =>
      simp only [step] at moved
      split at moved
      · rename_i found
        obtain rfl := Option.some.inj moved
        cases data with
        | none =>
            refine inv_yield found inv (fun others perm inv' => ?_) rfl
            exact inv_idle (inv'.mono (List.sublist_cons_self _ others).subperm) rfl rfl rfl rfl
        | some seasonId =>
            refine inv_yield found inv (fun others perm inv' => ?_) threads_checkTitleOver
            refine inv_compare (inv'.mono (List.sublist_cons_self _ others).subperm) fun other => ?_
            obtain ⟨same, later, none_left⟩ := apart seasonId rfl other
            exact ⟨same, later, fun pc mem =>
              none_left pc (perm.symm.subset (List.mem_cons_of_mem _ mem))⟩
      · cases moved
  | rankUser i data =>
      simp only [step] at moved
      split at moved
      · rename_i seasonId oldSeasonId oldLv found
        obtain rfl := Option.some.inj moved
        obtain ⟨same, later, none_left⟩ := apart _ found
        refine inv_yield found inv (fun others perm inv' => ?_) threads_store
        exact inv_store (inv'.mono (List.sublist_cons_self _ others).subperm) ⟨same, later,
          fun pc mem => none_left pc (perm.symm.subset (List.mem_cons_of_mem _ mem))⟩
      · cases moved
  | resume i =>
      obtain ⟨pc, found, rest⟩ := Option.bind_eq_some_iff.mp moved
      obtain ⟨r, resumed, last⟩ := Option.bind_eq_some_iff.mp rest
      obtain rfl := Option.some.inj last
      exact inv_resume inv apart found resumed

theorem inv_seasonStart : (start u).SeasonInv [] :=
  ⟨List.nodup_nil, nofun, nofun, List.nodup_nil, nofun, nofun, List.nodup_nil, nofun, nofun,
    List.nodup_nil, List.nodup_nil⟩

/-- Where no request overlaps another on a level, or a reset, and no reset another, each level
is rewarded once at most in a season, by a claim or by mail, and each season resets the user
once at most. -/
theorem run_lvReward {es : List SeasonEvent}
    (run : Run (step cfg) (Apart cfg) (start u) es s) :
    s.granted.Nodup ∧ (s.resets.map SeasonChange.seasonId).Nodup ∧
      (s.resets.map SeasonChange.oldSeasonId).Nodup := by
  have inv := run.invariant (fun s => s.SeasonInv s.threads) inv_seasonStart
    fun _ _ _ inv apart moved => inv_seasonStep inv apart moved
  exact ⟨(List.nodup_append.mp inv.nodup).1, inv.once⟩

/-- A user of the third level in the first season. -/
def titleUser : LvInfo := ⟨3, 250, some 3, some 250, some 3, some 250, some 1, none⟩

/-- One level claimed, one mailed, and one claimed again in the new season. -/
def seasonEvents : List SeasonEvent :=
  [.getLvReward [2], .resume 0, .resume 0, .resume 0, .userOnline, .seasonData 1 (some 2),
    .rankUser 1 (some true), .userSeasonUpdate 2, .resume 1, .resume 1, .getLvReward [2], .resume 3]

theorem run_lvReward_events :
    ∃ s, Run (step TitleUser.titleTable) (Apart TitleUser.titleTable) (start titleUser) seasonEvents s ∧
      s.granted = [⟨some 1, 2⟩, ⟨some 1, 3⟩, ⟨some 2, 2⟩] ∧ s.resets = [⟨some 1, 2⟩] ∧
      s.granted.Nodup ∧ (s.resets.map SeasonChange.seasonId).Nodup ∧
        (s.resets.map SeasonChange.oldSeasonId).Nodup := by
  have run := @run_of_guarded _ _ (step TitleUser.titleTable) (Apart TitleUser.titleTable) _
    (start titleUser) seasonEvents _ rfl
  exact ⟨_, run, by decide +kernel, by decide +kernel, run_lvReward run⟩

/-- A level named twice in one request. -/
theorem run_lvReward_fails :
    ¬∀ cfg u es s, Run (step cfg) anyStep (start u) es s → s.granted.Nodup := by
  intro all
  have run := @run_of_exec _ _ (step TitleUser.titleTable) (start titleUser)
    [.getLvReward [2, 2], .resume 0, .resume 0, .resume 0, .resume 0] _ rfl
  exact absurd (all _ _ _ _ run) (by decide +kernel)

end Threads

end SeasonUser

end HuluLandlord.Agent
