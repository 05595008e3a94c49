import HuluLandlord.Table
import HuluLandlord.Transition
import Mathlib.Logic.Function.Basic

/-!
The robots. Those that are free are kept in lists, by their tag and their configuration. `CreateRobot` takes
them from there and starts a service for each, and waits for it; other commands run meanwhile. A service loads
the data of its robot first. The robot is given back when its service has published that the game is over.
-/
namespace HuluLandlord.Services
open Transition Table

inductive RobotTag
  | Default | NotPay | Pay
  deriving DecidableEq, Repr

/-- An id is made of these, and taken apart into them. -/
structure RobotId where
  cfgId : Nat
  idx : Nat
  robotTagType : RobotTag
  deriving DecidableEq, Repr

structure RobotMgrConfig where
  robotCfgIdArr : List Nat
  nodup : robotCfgIdArr.Nodup
  two : 2 ≤ robotCfgIdArr.length

namespace RobotMgrConfig

def robotCfgLen (cfg : RobotMgrConfig) : Int := cfg.robotCfgIdArr.length

/-- The array is indexed from one. -/
def robotCfgId (cfg : RobotMgrConfig) (idx : Int) : Option Nat :=
  if 1 ≤ idx then cfg.robotCfgIdArr[idx.toNat - 1]? else none

/-- The number of robots of a configuration and a tag. -/
def len : Nat := 10

def Configured (cfg : RobotMgrConfig) (id : RobotId) : Prop :=
  id.cfgId ∈ cfg.robotCfgIdArr ∧ 1 ≤ id.idx ∧ id.idx ≤ len

instance decidableConfigured (cfg : RobotMgrConfig) (id : RobotId) : Decidable (cfg.Configured id) :=
  inferInstanceAs (Decidable (_ ∧ _ ∧ _))

end RobotMgrConfig

structure RobotService where
  robotId : RobotId
  loaded : Bool
  deriving DecidableEq, Repr

inductive CreatePc
  | newservice
  | returned
  | outOfTries
  | raised
  deriving DecidableEq, Repr

/-- A call of `CreateRobot`, that was made for `asked` robots. `num` are those still to be started, and
`tries` the rounds of the loop that are left. `met` tells of each round whether there was a robot, and
`started` are those for which a service was started. -/
structure CreateCall where
  asked : Int
  robotTagType : RobotTag
  tries : Nat
  num : Int
  pc : CreatePc
  met : List Bool
  started : List RobotId
  deriving DecidableEq, Repr

structure DdzRobotMgr where
  robotIndex : Int
  robotDataGroup : RobotTag → Nat → List RobotId
  robotDatas : RobotId → Bool
  robotUseInfo : RobotTag → Int
  services : List RobotService
  calls : List CreateCall

/-- `GetRobotInfo` is what others ask. -/
inductive RobotEvent
  | CreateRobot (num : Option Int) (robotTagType : Option RobotTag)
  | loaded (k : Nat)
  | launched (i : Nat)
  | GetRobotInfo (id : RobotId)
  | robot_gameover (k : Nat)
  deriving DecidableEq, Repr

def Int32MaxValue : Int := 2147483647

namespace DdzRobotMgr

def setGroup (s : DdzRobotMgr) (tag : RobotTag) (cfgId : Nat) (arr : List RobotId) :
    RobotTag → Nat → List RobotId :=
  Function.update s.robotDataGroup tag (Function.update (s.robotDataGroup tag) cfgId arr)

/-- The sum is one of 64-bit integers. -/
def nextIndex (robotCfgLen robotIndex : Int) : Int :=
  let robotIndex := (robotIndex + 1).bmod (2 ^ 64)
  if Int32MaxValue ≤ robotIndex then 1
  else if robotIndex % robotCfgLen = 0 then robotIndex + 1
  else robotIndex

/-- The loop of `CreateRobot`, up to where it waits for a new service, or its end. -/
def tryNext (cfg : RobotMgrConfig) : Nat → DdzRobotMgr → CreateCall → DdzRobotMgr × CreateCall
  | 0, s, c => (s, { c with pc := .outOfTries })
  | tries + 1, s, c =>
      let robotIndex := nextIndex cfg.robotCfgLen s.robotIndex
      let s := { s with robotIndex }
      match cfg.robotCfgId (robotIndex % cfg.robotCfgLen) with
      | none => (s, { c with pc := .raised })
      | some cfgId =>
          match s.robotDataGroup c.robotTagType cfgId with
          | [] =>
              let c := { c with tries, met := c.met ++ [false] }
              if c.num ≤ 0 then (s, { c with pc := .returned }) else tryNext cfg tries s c
          | robotId :: groupDataArr =>
              ({ s with
                robotUseInfo := Function.update s.robotUseInfo c.robotTagType (s.robotUseInfo c.robotTagType + 1)
                robotDataGroup := s.setGroup c.robotTagType cfgId groupDataArr
                services := s.services ++ [⟨robotId, false⟩] },
              { c with
                tries
                num := c.num - 1
                pc := .newservice
                met := c.met ++ [true]
                started := c.started ++ [robotId] })

def CreateRobot (cfg : RobotMgrConfig) (s : DdzRobotMgr) (num : Int) (robotTagType : RobotTag) :
    DdzRobotMgr × CreateCall :=
  tryNext cfg (num * 5).toNat s ⟨num, robotTagType, (num * 5).toNat, num, .newservice, [], []⟩

/-- What the event handler does; it goes by the data of the robot. -/
def gameover (s : DdzRobotMgr) (robotId : RobotId) : DdzRobotMgr :=
  if s.robotDatas robotId then
    let tag := robotId.robotTagType
    { s with
      robotDataGroup := s.setGroup tag robotId.cfgId (s.robotDataGroup tag robotId.cfgId ++ [robotId])
      robotUseInfo := Function.update s.robotUseInfo tag (s.robotUseInfo tag - 1) }
  else s

def getRobotData (cfg : RobotMgrConfig) (s : DdzRobotMgr) (id : RobotId) : DdzRobotMgr :=
  if cfg.Configured id then { s with robotDatas := Function.update s.robotDatas id true } else s

def step (cfg : RobotMgrConfig) (s : DdzRobotMgr) : RobotEvent → Option DdzRobotMgr
  | .CreateRobot num robotTagType =>
      let (s, c) := s.CreateRobot cfg (num.getD 1) (robotTagType.getD .Default)
      some { s with calls := s.calls ++ [c] }
  | .loaded k => s.services[k]?.map fun v =>
      { s.getRobotData cfg v.robotId with services := s.services.set k { v with loaded := true } }
  | .launched i => s.calls[i]?.bind fun c =>
      if c.pc = .newservice ∧ c.started.getLast?.all s.robotDatas = true then
        let (t, c) := if c.num ≤ 0 then (s, { c with pc := .returned }) else tryNext cfg c.tries s c
        some { t with calls := t.calls.set i c }
      else none
  | .GetRobotInfo id => some (s.getRobotData cfg id)
  | .robot_gameover k => s.services[k]?.bind fun v =>
      if v.loaded then some ({ s with services := s.services.eraseIdx k }.gameover v.robotId) else none

/-- `initRobot`, with any counter. -/
def init (cfg : RobotMgrConfig) (robotIndex : Int) : DdzRobotMgr where
  robotIndex := robotIndex
  robotDataGroup tag cfgId :=
    if cfgId ∈ cfg.robotCfgIdArr then
      (List.range' 1 RobotMgrConfig.len).map fun idx => ⟨cfgId, idx, tag⟩
    else []
  robotDatas _ := false
  robotUseInfo _ := 0
  services := []
  calls := []

end DdzRobotMgr

/-- Where a robot can be. -/
inductive RobotPlace
  | free (tag : RobotTag) (cfgId k : Nat)
  | service (k : Nat)
  deriving DecidableEq, Repr

def DdzRobotMgr.robotAt (s : DdzRobotMgr) : RobotPlace → Option RobotId
  | .free tag cfgId k => (s.robotDataGroup tag cfgId)[k]?
  | .service k => s.services[k]?.map RobotService.robotId

/-- A call that has ended has started as many robots as it was asked to, unless there were not that many in
all its rounds. -/
structure CreateCall.Exact (c : CreateCall) : Prop where
  inside : c.pc ≠ .raised
  rounds : c.met.length ≤ 5 * c.asked.toNat
  most : c.started.length ≤ c.asked.toNat
  ended : c.pc ≠ .newservice → c.started.length = c.asked.toNat ∨
    (c.met.length = 5 * c.asked.toNat ∧ c.met.count true < c.asked.toNat)

structure DdzRobotMgr.Kept (cfg : RobotMgrConfig) (s : DdzRobotMgr) : Prop where
  place : ∀ id, cfg.Configured id → ∃! place, s.robotAt place = some id
  calls : ∀ c ∈ s.calls, c.Exact
  used : ∀ tag, s.robotUseInfo tag = s.services.countP fun v => v.robotId.robotTagType = tag

namespace DdzRobotMgr

/-- A robot is in its own list, once, or has one service. -/
structure RobotInv (cfg : RobotMgrConfig) (s : DdzRobotMgr) : Prop where
  home : ∀ tag cfgId, ∀ id ∈ s.robotDataGroup tag cfgId, id.robotTagType = tag ∧ id.cfgId = cfgId
  once : ∀ id, (s.robotDataGroup id.robotTagType id.cfgId).count id +
    s.services.countP (fun v => v.robotId = id) = if cfg.Configured id then 1 else 0
  loaded : ∀ v ∈ s.services, v.loaded = true → s.robotDatas v.robotId = true
  used : ∀ tag, s.robotUseInfo tag = s.services.countP fun v => v.robotId.robotTagType = tag

section Robots
variable {cfg : RobotMgrConfig} {s t : DdzRobotMgr} {c d : CreateCall} {tag tag' : RobotTag} {cfgId cfgId' i k : Nat}
  {id : RobotId} {arr : List RobotId} {v : RobotService} {e : RobotEvent}

theorem setGroup_apply (tag' : RobotTag) (cfgId' : Nat) :
    s.setGroup tag cfgId arr tag' cfgId' =
      if tag' = tag ∧ cfgId' = cfgId then arr else s.robotDataGroup tag' cfgId' := by
  by_cases same : tag' = tag
  · by_cases here : cfgId' = cfgId
    · simp [setGroup, same, here]
    · simp [setGroup, same, here]
  · simp [setGroup, same]

/-- The index that is next is that of a configured robot. -/
theorem nextIndex_inside (cfg : RobotMgrConfig) (robotIndex : Int) :
    ∃ cfgId, cfg.robotCfgId (nextIndex cfg.robotCfgLen robotIndex % cfg.robotCfgLen) = some cfgId := by
  have two : (2 : Int) ≤ cfg.robotCfgLen := Int.ofNat_le.mpr cfg.two
  have least : 1 ≤ nextIndex cfg.robotCfgLen robotIndex % cfg.robotCfgLen := by
    rw [nextIndex]
    split
    · rw [Int.emod_eq_of_lt (by omega) (by omega)]
    · split
      · rename_i zero
        rw [Int.add_emod, zero, zero_add, Int.emod_emod, Int.emod_eq_of_lt (by omega) (by omega)]
      · rename_i other
        have := Int.emod_nonneg ((robotIndex + 1).bmod (2 ^ 64)) (b := cfg.robotCfgLen) (by omega)
        omega
  have below := Int.emod_lt_of_pos (nextIndex cfg.robotCfgLen robotIndex) (b := cfg.robotCfgLen) (by omega)
  rw [RobotMgrConfig.robotCfgId, if_pos least]
  have inside : (nextIndex cfg.robotCfgLen robotIndex % cfg.robotCfgLen).toNat - 1 < cfg.robotCfgIdArr.length := by
    rw [RobotMgrConfig.robotCfgLen] at *
    omega
  exact ⟨_, List.getElem?_eq_getElem inside⟩

/-- A robot is taken from its list, and a service started for it. -/
theorem inv_take (inv : RobotInv cfg s) (free : s.robotDataGroup tag cfgId = id :: arr) (robotIndex : Int) :
    RobotInv cfg { s with
      robotIndex
      robotUseInfo := Function.update s.robotUseInfo tag (s.robotUseInfo tag + 1)
      robotDataGroup := s.setGroup tag cfgId arr
      services := s.services ++ [⟨id, false⟩] } := by
  obtain ⟨rfl, rfl⟩ := inv.home tag cfgId id (free ▸ List.mem_cons_self)
  refine ⟨fun tag cfgId other mem => ?_, fun other => ?_, fun v mem loaded => ?_, fun tag => ?_⟩
  · simp only [setGroup_apply] at mem
    split at mem
    · rename_i here
      exact inv.home tag cfgId other (by rw [here.1, here.2, free]; exact List.mem_cons_of_mem _ mem)
    · exact inv.home tag cfgId other mem
  · have before := inv.once other
    simp only [setGroup_apply, List.countP_append, List.countP_singleton, decide_eq_true_eq]
    split
    · rename_i here
      rw [here.1, here.2, free, List.count_cons] at before
      rw [← before]
      simp only [beq_iff_eq]
      omega
    · rename_i elsewhere
      have differs : id ≠ other := fun same => elsewhere ⟨congrArg _ same.symm, congrArg _ same.symm⟩
      rw [if_neg differs, add_zero]
      exact before
  · obtain old | rfl := List.mem_append.mp mem |>.imp_right List.mem_singleton.mp
    · exact inv.loaded v old loaded
    · cases loaded
  · have before := inv.used tag
    simp only [List.countP_append, List.countP_singleton, decide_eq_true_eq]
    by_cases same : tag = id.robotTagType
    · rw [same] at before ⊢
      rw [Function.update_self, before, if_pos rfl]
      push_cast
      rfl
    · rw [Function.update_of_ne same, before, if_neg (Ne.symm same), add_zero]

/-- Only the counter and the calls are others. -/
theorem RobotInv.same (inv : RobotInv cfg s) (robotDataGroup : t.robotDataGroup = s.robotDataGroup)
    (services : t.services = s.services) (robotDatas : t.robotDatas = s.robotDatas)
    (robotUseInfo : t.robotUseInfo = s.robotUseInfo) : RobotInv cfg t := by
  cases t
  obtain rfl := robotDataGroup
  obtain rfl := services
  obtain rfl := robotDatas
  obtain rfl := robotUseInfo
  exact ⟨inv.home, inv.once, inv.loaded, inv.used⟩

theorem inv_tryNext {n : Nat} (inv : RobotInv cfg s) : RobotInv cfg (tryNext cfg n s c).1 := by
  induction n generalizing s c with
  | zero => exact inv
  | succ n ih =>
      obtain ⟨cfgId, inside⟩ := nextIndex_inside cfg s.robotIndex
      rw [tryNext]
      simp only [inside]
      have turned : RobotInv cfg { s with robotIndex := nextIndex cfg.robotCfgLen s.robotIndex } :=
        inv.same rfl rfl rfl rfl
      split
      · split
        · exact turned
        · exact ih turned
      · rename_i free
        exact inv_take inv free _

theorem perm_service (here : s.services[k]? = some v) : s.services.Perm (v :: s.services.eraseIdx k) := by
  obtain ⟨inside, rfl⟩ := List.getElem?_eq_some_iff.mp here
  exact (List.getElem_cons_eraseIdx_perm inside).symm

/-- A robot whose data is loaded goes back to its list, at the end. -/
theorem inv_gameover (inv : RobotInv cfg s) (here : s.services[k]? = some v) (loaded : v.loaded = true) :
    RobotInv cfg ({ s with services := s.services.eraseIdx k }.gameover v.robotId) := by
  have known : s.robotDatas v.robotId = true := inv.loaded v (List.mem_of_getElem? here) loaded
  have perm := perm_service here
  rw [gameover, if_pos known]
  refine ⟨fun tag cfgId other mem => ?_, fun other => ?_, fun w mem => ?_, fun tag => ?_⟩
  · simp only [setGroup_apply] at mem
    split at mem
    · rename_i same
      obtain old | rfl := List.mem_append.mp mem |>.imp_right List.mem_singleton.mp
      · exact same.1 ▸ same.2 ▸ inv.home _ _ other old
      · exact ⟨same.1.symm, same.2.symm⟩
    · exact inv.home tag cfgId other mem
  · have before := inv.once other
    rw [perm.countP_eq, List.countP_cons] at before
    simp only [setGroup_apply, decide_eq_true_eq] at before ⊢
    split
    · rename_i same
      rw [← before, same.1, same.2, List.count_append, List.count_singleton]
      simp only [beq_iff_eq]
      omega
    · rename_i elsewhere
      have differs : v.robotId ≠ other := fun same => elsewhere ⟨congrArg _ same.symm, congrArg _ same.symm⟩
      rw [if_neg differs, add_zero] at before
      exact before
  · exact inv.loaded w (perm.mem_iff.mpr (List.mem_cons_of_mem _ mem))
  · have before := inv.used tag
    rw [perm.countP_eq, List.countP_cons] at before
    simp only [decide_eq_true_eq] at before ⊢
    by_cases same : tag = v.robotId.robotTagType
    · rw [same] at before ⊢
      rw [if_pos rfl] at before
      rw [Function.update_self, before]
      push_cast
      exact add_sub_cancel_right _ _
    · rw [if_neg (Ne.symm same), add_zero] at before
      rw [Function.update_of_ne same]
      exact before

theorem inv_load (inv : RobotInv cfg s) (id : RobotId) : RobotInv cfg (s.getRobotData cfg id) := by
  rw [getRobotData]
  split
  · refine ⟨inv.home, inv.once, fun v mem loaded => ?_, inv.used⟩
    by_cases same : v.robotId = id
    · rw [same]
      exact Function.update_self id true s.robotDatas
    · exact (Function.update_of_ne same true s.robotDatas).trans (inv.loaded v mem loaded)
  · exact inv

theorem configured_of_service (inv : RobotInv cfg s) (mem : v ∈ s.services) : cfg.Configured v.robotId := by
  have before := inv.once v.robotId
  have one : 0 < s.services.countP (fun w => w.robotId = v.robotId) :=
    List.countP_pos_iff.mpr ⟨v, mem, decide_eq_true rfl⟩
  by_contra absent
  rw [if_neg absent] at before
  omega

/-- The service of a robot has loaded its data. -/
theorem inv_loaded (inv : RobotInv cfg s) (here : s.services[k]? = some v) :
    RobotInv cfg { s.getRobotData cfg v.robotId with services := s.services.set k { v with loaded := true } } := by
  have configured := configured_of_service inv (List.mem_of_getElem? here)
  have after := inv_load inv v.robotId
  rw [getRobotData, if_pos configured] at after ⊢
  have perm : (s.services.set k { v with loaded := true }).Perm ({ v with loaded := true } :: s.services.eraseIdx k) :=
    List.set_perm_cons_eraseIdx (List.getElem?_eq_some_iff.mp here).1 _
  refine ⟨inv.home, fun other => ?_, fun w mem loaded => ?_, fun tag => ?_⟩
  · rw [perm.countP_eq, List.countP_cons, ← inv.once other, (perm_service here).countP_eq, List.countP_cons]
  · obtain old | rfl := List.mem_or_eq_of_mem_set mem
    · exact after.loaded w old loaded
    · exact Function.update_self v.robotId true s.robotDatas
  · rw [perm.countP_eq, List.countP_cons, inv.used tag, (perm_service here).countP_eq, List.countP_cons]

theorem inv_step (inv : RobotInv cfg s) (moved : step cfg s e = some t) : RobotInv cfg t := by
  cases e with
  | CreateRobot num robotTagType =>
      obtain rfl := Option.some.inj moved
      exact (inv_tryNext inv).same rfl rfl rfl rfl
  | loaded k =>
      obtain ⟨v, here, rfl⟩ := Option.map_eq_some_iff.mp moved
      exact inv_loaded inv here
  | launched i =>
      obtain ⟨c, here, moved⟩ := Option.bind_eq_some_iff.mp moved
      split at moved
      · split at moved
        rename_i t' c' next
        obtain rfl := Option.some.inj moved
        have after : RobotInv cfg t' := by
          split at next
          · obtain ⟨rfl, -⟩ := Prod.mk.inj next
            exact inv
          · have tried : RobotInv cfg (tryNext cfg c.tries s c).1 := inv_tryNext inv
            rw [next] at tried
            exact tried
        exact after.same rfl rfl rfl rfl
      · cases moved
  | GetRobotInfo id =>
      obtain rfl := Option.some.inj moved
      exact inv_load inv id
  | robot_gameover k =>
      obtain ⟨v, here, moved⟩ := Option.bind_eq_some_iff.mp moved
      split at moved
      · rename_i loaded
        obtain rfl := Option.some.inj moved
        exact inv_gameover inv here loaded
      · cases moved

theorem inv_init (cfg : RobotMgrConfig) (robotIndex : Int) : RobotInv cfg (init cfg robotIndex) := by
  refine ⟨fun tag cfgId id mem => ?_, fun id => ?_, fun v mem => absurd mem List.not_mem_nil, fun tag => rfl⟩
  · simp only [init] at mem
    split at mem
    · obtain ⟨idx, -, rfl⟩ := List.mem_map.mp mem
      exact ⟨rfl, rfl⟩
    · cases mem
  · obtain ⟨cfgId, idx, tag⟩ := id
    simp only [init, List.countP_nil, add_zero, RobotMgrConfig.Configured]
    split
    · rename_i known
      have fresh : ((List.range' 1 RobotMgrConfig.len).map fun idx => RobotId.mk cfgId idx tag).Nodup :=
        List.Nodup.map (fun a b same => congrArg RobotId.idx same) List.nodup_range'
      have listed : RobotId.mk cfgId idx tag ∈ (List.range' 1 RobotMgrConfig.len).map (RobotId.mk cfgId · tag) ↔
          1 ≤ idx ∧ idx ≤ RobotMgrConfig.len := by
        rw [List.mem_map]
        constructor
        · rintro ⟨idx', mem, same⟩
          cases same
          rw [List.mem_range'_1] at mem
          omega
        · rintro ⟨least, most⟩
          exact ⟨idx, List.mem_range'_1.mpr (by omega), rfl⟩
      rw [fresh.count]
      simp only [listed, known, true_and]
    · rename_i unknown
      exact (if_neg fun all => unknown all.1).symm

/-- The lists that a robot can be found in are its own. -/
theorem inv_home (inv : RobotInv cfg s) (here : s.robotAt (.free tag cfgId k) = some id) :
    tag = id.robotTagType ∧ cfgId = id.cfgId :=
  (inv.home tag cfgId id (List.mem_of_getElem? here)).imp Eq.symm Eq.symm

/-- One place for a robot that is there once. -/
theorem inv_place (inv : RobotInv cfg s) (configured : cfg.Configured id) : ∃! place, s.robotAt place = some id := by
  have once := inv.once id
  rw [if_pos configured] at once
  have isAt {x : Option RobotId} : x.any (· == id) = true ↔ x = some id := by
    cases x with
    | none => simp
    | some y => simp
  by_cases running : s.services.countP (fun v => v.robotId = id) = 0
  · have listed : (s.robotDataGroup id.robotTagType id.cfgId).count id = 1 := by omega
    obtain ⟨k, here, only⟩ := exactly_one listed
    refine ⟨.free id.robotTagType id.cfgId k, isAt.mp here, fun place there => ?_⟩
    cases place with
    | free tag cfgId j =>
        obtain ⟨rfl, rfl⟩ := inv_home inv there
        rw [only j (isAt.mpr there)]
    | service j =>
        obtain ⟨v, found, same⟩ := Option.map_eq_some_iff.mp there
        exact absurd (decide_eq_true same) (List.countP_eq_zero.mp running v (List.mem_of_getElem? found))
  · obtain ⟨k, here, only⟩ := exactly_one (show s.services.countP (fun v => v.robotId = id) = 1 by omega)
    have isService {j : Nat} :
        (s.services[j]?).any (fun v => v.robotId = id) = true ↔ s.robotAt (.service j) = some id := by
      rw [robotAt, Option.any_eq_true, Option.map_eq_some_iff]
      simp only [decide_eq_true_eq]
    refine ⟨.service k, isService.mp here, fun place there => ?_⟩
    cases place with
    | free tag cfgId j =>
        obtain ⟨rfl, rfl⟩ := inv_home inv there
        have listed := List.count_pos_iff.mpr (List.mem_of_getElem? there)
        omega
    | service j => rw [only j (isService.mpr there)]

/-- What is known of a call while it goes on. -/
structure CallInv (c : CreateCall) : Prop where
  inside : c.pc ≠ .raised
  rounds : c.tries + c.met.length = 5 * c.asked.toNat
  met : c.started.length = c.met.count true
  num : c.num = c.asked - c.started.length
  most : c.started.length ≤ c.asked.toNat
  returned : c.pc = .returned → c.num ≤ 0
  outOfTries : c.pc = .outOfTries → c.tries = 0 ∧ (0 < c.num ∨ c.asked ≤ 0)

/-- A call goes through its rounds with something left to start, or was made for nothing. -/
theorem call_tryNext {n : Nat} (inv : CallInv c) (going : c.pc = .newservice) (tries : c.tries = n)
    (left : 0 < c.num ∨ c.asked ≤ 0) : CallInv (tryNext cfg n s c).2 := by
  induction n generalizing s c with
  | zero =>
      exact ⟨CreatePc.noConfusion, inv.rounds, inv.met, inv.num, inv.most, CreatePc.noConfusion,
        fun _ => ⟨tries, left⟩⟩
  | succ n ih =>
      obtain ⟨cfgId, inside⟩ := nextIndex_inside cfg s.robotIndex
      rw [tryNext]
      simp only [inside]
      -- a round is made only when the call was made for something
      have rounds := inv.rounds
      have num := inv.num
      have more : 0 < c.num := by omega
      split
      · rw [if_neg (not_le.mpr more)]
        refine ih ⟨inv.inside, ?_, ?_, num, inv.most, inv.returned, ?_⟩ going rfl (.inl more)
        · simp only [List.length_append, List.length_singleton]
          omega
        · rw [List.count_append]
          exact inv.met
        · exact fun ended => absurd (going.symm.trans ended) CreatePc.noConfusion
      · refine ⟨CreatePc.noConfusion, ?_, ?_, ?_, ?_, CreatePc.noConfusion, CreatePc.noConfusion⟩
        · simp only [List.length_append, List.length_singleton]
          omega
        · rw [List.length_append, List.count_append, inv.met]
          rfl
        · simp only [List.length_append, List.length_singleton]
          omega
        · simp only [List.length_append, List.length_singleton]
          omega

theorem call_CreateRobot (num : Int) (tag : RobotTag) : CallInv (s.CreateRobot cfg num tag).2 := by
  refine call_tryNext ⟨CreatePc.noConfusion, ?_, rfl, ?_, Nat.zero_le _, CreatePc.noConfusion,
    CreatePc.noConfusion⟩ rfl rfl (lt_or_ge 0 num)
  · simp only [List.length_nil]
    omega
  · simp only [List.length_nil]
    omega

theorem call_launched (inv : CallInv c) (going : c.pc = .newservice) :
    CallInv (if c.num ≤ 0 then (s, { c with pc := .returned }) else tryNext cfg c.tries s c).2 := by
  split
  · rename_i none_
    exact ⟨CreatePc.noConfusion, inv.rounds, inv.met, inv.num, inv.most, fun _ => none_, CreatePc.noConfusion⟩
  · rename_i more
    exact call_tryNext inv going rfl (.inl (not_le.mp more))

theorem exact_of_inv (inv : CallInv c) : c.Exact := by
  obtain ⟨inside, rounds, met, num, most, returned, outOfTries⟩ := inv
  refine ⟨inside, by omega, most, fun ended => ?_⟩
  cases pc : c.pc with
  | newservice => exact absurd pc ended
  | raised => exact absurd pc inside
  | returned =>
      have none_ := returned pc
      exact .inl (by omega)
  | outOfTries =>
      obtain ⟨last, left⟩ := outOfTries pc
      by_cases all : c.started.length = c.asked.toNat
      · exact .inl all
      · exact .inr ⟨by omega, by omega⟩

theorem tryNext_calls (n : Nat) : (tryNext cfg n s c).1.calls = s.calls := by
  induction n generalizing s c with
  | zero => rfl
  | succ n ih =>
      obtain ⟨cfgId, inside⟩ := nextIndex_inside cfg s.robotIndex
      rw [tryNext]
      simp only [inside]
      split
      · split
        · rfl
        · exact ih
      · rfl

theorem calls_step (inv : ∀ c ∈ s.calls, CallInv c) (moved : step cfg s e = some t) : ∀ c ∈ t.calls, CallInv c := by
  cases e with
  | CreateRobot num robotTagType =>
      obtain rfl := Option.some.inj moved
      intro c mem
      obtain old | rfl := List.mem_append.mp mem |>.imp_right List.mem_singleton.mp
      · exact inv c (tryNext_calls (num.getD 1 * 5).toNat ▸ old)
      · exact call_CreateRobot _ _
  | loaded k =>
      obtain ⟨v, here, rfl⟩ := Option.map_eq_some_iff.mp moved
      rw [getRobotData]
      split
      · exact inv
      · exact inv
  | launched i =>
      obtain ⟨c, here, moved⟩ := Option.bind_eq_some_iff.mp moved
      split at moved
      · rename_i going
        have after := @call_launched cfg s c (inv c (List.mem_of_getElem? here)) going.1
        split at moved
        rename_i t' c' next
        obtain rfl := Option.some.inj moved
        rw [next] at after
        have calls : t'.calls = s.calls := by
          split at next
          · obtain ⟨rfl, -⟩ := Prod.mk.inj next
            rfl
          · have same := @tryNext_calls cfg s c c.tries
            rw [next] at same
            exact same
        intro d mem
        obtain old | rfl := List.mem_or_eq_of_mem_set mem
        · exact inv d (calls ▸ old)
        · exact after
      · cases moved
  | GetRobotInfo id =>
      obtain rfl := Option.some.inj moved
      rw [getRobotData]
      split
      · exact inv
      · exact inv
  | robot_gameover k =>
      obtain ⟨v, here, moved⟩ := Option.bind_eq_some_iff.mp moved
      split at moved
      · obtain rfl := Option.some.inj moved
        rw [gameover]
        split
        · exact inv
        · exact inv
      · cases moved

/-- Whatever is asked, and whatever the counter was, every robot is in one place. -/
theorem run_kept {es : List RobotEvent} {robotIndex : Int} (run : Run (step cfg) anyStep (init cfg robotIndex) es s) :
    s.Kept cfg := by
  have robots : RobotInv cfg s :=
    run.invariant (RobotInv cfg) (inv_init cfg robotIndex) fun _ _ _ inv _ moved => inv_step inv moved
  have calls : ∀ c ∈ s.calls, CallInv c :=
    run.invariant (fun s => ∀ c ∈ s.calls, CallInv c) (fun c mem => absurd mem List.not_mem_nil)
      fun _ _ _ inv _ moved => calls_step inv moved
  exact ⟨fun id => inv_place robots, fun c mem => exact_of_inv (calls c mem), robots.used⟩

end Robots

/-- Two configurations, and the counter about to wrap; one robot is given back. -/
theorem run_kept_two : ∃ s, Run (step ⟨[1, 2], by decide, by decide⟩) anyStep
      (init ⟨[1, 2], by decide, by decide⟩ 2147483646)
      [.CreateRobot (some 2) none, .loaded 0, .launched 0, .loaded 1, .launched 0, .robot_gameover 0] s ∧
    (s.robotUseInfo .Default = 1 ∧ s.calls.map CreateCall.pc = [.returned]) ∧
    s.Kept ⟨[1, 2], by decide, by decide⟩ := by
  obtain ⟨s, run, one⟩ := run_of_exec_any (step ⟨[1, 2], by decide, by decide⟩)
    (init ⟨[1, 2], by decide, by decide⟩ 2147483646)
    [.CreateRobot (some 2) none, .loaded 0, .launched 0, .loaded 1, .launched 0, .robot_gameover 0]
    (fun s => s.robotUseInfo .Default = 1 ∧ s.calls.map CreateCall.pc = [.returned]) (by decide)
  exact ⟨s, run, one, run_kept run⟩

end DdzRobotMgr

end HuluLandlord.Services
