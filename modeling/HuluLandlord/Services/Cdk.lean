import HuluLandlord.Agent.UserItem
import HuluLandlord.Define
import HuluLandlord.Transition
import HuluLandlord.Table

/-!
The service that redeems codes. Requests are answered side by side: a request runs from one
call of the database to the next, and every call is an event of its own, taken at any time
after the call before it. Of the rows with one key a table is known by the first, which is
the one that is found and updated. The record of a user is added in the step that answers
the request, so a request that has come to `succeed_1` is a reward.
-/
namespace HuluLandlord.Services
open Transition Table

abbrev CdkId := List Char
abbrev BatchId := Nat
abbrev Channel := String

/-- The types `"1"` and `"2"`, and any other text. -/
inductive CDRType
  | type1 | type2 | other
  deriving DecidableEq, Repr

/-- A row of `ServerCdkRecord`; no channel is one that does not decode to a list. -/
structure CdkData where
  type : CDRType
  batchId : BatchId
  startAt : Int
  endAt : Int
  channel : Option (List Channel)
  rewardList : List Agent.Entry
  userNumN : Nat
  userNumO : Nat
  userNum : Nat
  enable : Bool
  deriving DecidableEq, Repr

/-- A row of `ServerBatchRecord`, which has no `rewardNum` before the first reward. -/
structure BatchIdData where
  startAt : Int
  endAt : Int
  enable : Bool
  rewardNum : Option Nat
  deriving DecidableEq, Repr

/-- A row of `UserCdkRecord`. -/
structure UserData where
  uId : UserId
  batchId : BatchId
  cdkId : CdkId
  channel : Option Channel
  deriving DecidableEq, Repr

structure RewardArgs where
  cdkId : Option CdkId
  uId : UserId
  isNew : Bool
  channel : Option Channel
  deriving DecidableEq, Repr

inductive Refusal
  | notExists_5 | empty_7 | other_10 | other_11 | other_12
  deriving DecidableEq, Repr

/-- The call of the database a request makes next, with the rows it has read, or how it has
been answered. -/
inductive Pc
  | getCdkData
  | getBatchIdData (cdkData : CdkData) (currentAt : Int)
  | findCdk (cdkData : CdkData) (batchIdData : BatchIdData)
  | findBatch (cdkData : CdkData) (batchIdData : BatchIdData)
  | updateCdk (cdkData : CdkData) (batchIdData : BatchIdData)
  | updateBatch (cdkData : CdkData) (batchIdData : BatchIdData)
  | addUserCdk (cdkData : CdkData)
  | succeed_1 (cdkData : CdkData)
  | refused (ret : Refusal)
  | raised
  deriving DecidableEq, Repr

structure Request where
  args : RewardArgs
  pc : Pc
  deriving DecidableEq, Repr

structure CdkState where
  cdk : CdkId → Option CdkData
  batch : BatchId → Option BatchIdData
  records : List UserData
  requests : List Request

inductive CdkEvent
  | CDKReward (args : RewardArgs)
  | call (i : Nat) (now : Int)
  deriving DecidableEq, Repr

/-- `string.upper(args.cdkId or "")`. -/
def RewardArgs.code (args : RewardArgs) : CdkId := (args.cdkId.getD []).map Char.toUpper

def validChannel (userChannel : Option Channel) (sChannelList : List Channel) : Bool :=
  sChannelList.any fun channel => some channel = userChannel ∨ channel = "all"

/-- What is checked on the two rows; a code of another type is not looked up any further. -/
def checkRows (args : RewardArgs) (currentAt : Int) (cdkData : CdkData)
    (batchIdData : BatchIdData) : Pc :=
  if ¬batchIdData.enable then .refused .other_10
  else if ¬(currentAt ≥ batchIdData.startAt ∧ currentAt ≤ batchIdData.endAt) then
    .refused .other_11
  else if ¬cdkData.enable then .refused .other_10
  else if ¬(currentAt ≥ cdkData.startAt ∧ currentAt ≤ cdkData.endAt) then .refused .other_11
  else match cdkData.channel with
    | none => .raised
    | some sChannelList =>
        if ¬validChannel args.channel sChannelList then .refused .empty_7
        else match cdkData.type with
          | .type1 | .type2 => .findCdk cdkData batchIdData
          | .other => .updateCdk cdkData batchIdData

/-- The fields that are written, of the row that is there. -/
def countUser (isNew : Bool) (cdkData row : CdkData) : CdkData :=
  if isNew then { row with userNumN := cdkData.userNumN + 1, userNum := cdkData.userNum + 1 }
  else { row with userNumO := cdkData.userNumO + 1, userNum := cdkData.userNum + 1 }

def countReward (batchIdData row : BatchIdData) : BatchIdData :=
  { row with rewardNum := some (batchIdData.rewardNum.getD 0 + 1) }

namespace CdkState

/-- One call of the database, and the request up to the next. -/
def callDb (s : CdkState) (args : RewardArgs) (now : Int) : Pc → Option (CdkState × Pc)
  | .getCdkData => some (s, match s.cdk args.code with
      | none => .refused .notExists_5
      | some cdkData => .getBatchIdData cdkData now)
  | .getBatchIdData cdkData currentAt => some (s, match s.batch cdkData.batchId with
      | none => .refused .notExists_5
      | some batchIdData => checkRows args currentAt cdkData batchIdData)
  | .findCdk cdkData batchIdData => some (s, match cdkData.type with
      | .type1 =>
          if s.records.any fun r => r.cdkId = args.code then .refused .other_10
          else .findBatch cdkData batchIdData
      | _ =>
          if s.records.any fun r => r.cdkId = args.code ∧ r.uId = args.uId then
            .refused .other_12
          else .findBatch cdkData batchIdData)
  | .findBatch cdkData batchIdData => some (s,
      if s.records.any fun r => r.batchId = cdkData.batchId ∧ r.uId = args.uId then
        .refused .other_12
      else .updateCdk cdkData batchIdData)
  | .updateCdk cdkData batchIdData => some ({ s with
      cdk := Function.update s.cdk args.code
        ((s.cdk args.code).map (countUser args.isNew cdkData)) }, .updateBatch cdkData batchIdData)
  | .updateBatch cdkData batchIdData => some ({ s with
      batch := Function.update s.batch cdkData.batchId
        ((s.batch cdkData.batchId).map (countReward batchIdData)) }, .addUserCdk cdkData)
  | .addUserCdk cdkData => some ({ s with
      records := s.records ++ [⟨args.uId, cdkData.batchId, args.code, args.channel⟩] },
      .succeed_1 cdkData)
  | .succeed_1 _ | .refused _ | .raised => none

def step (s : CdkState) (e : CdkEvent) : Option CdkState :=
  match e with
  | .CDKReward args => some { s with requests := s.requests ++ [⟨args, .getCdkData⟩] }
  | .call i now => do
      let q ← s.requests[i]?
      let (t, pc) ← s.callDb q.args now q.pc
      some { t with requests := s.requests.set i { q with pc := pc } }

/-- No code has been redeemed yet. -/
def start (cdk : CdkId → Option CdkData) (batch : BatchId → Option BatchIdData) : CdkState :=
  ⟨fun id => (cdk id).map fun row => { row with userNumN := 0, userNumO := 0, userNum := 0 },
    fun id => (batch id).map fun row => { row with rewardNum := none }, [], []⟩

end CdkState

/-- How far a request has come: the number of its next call, 8 once it is rewarded. -/
def Pc.stage : Pc → Nat
  | .getCdkData => 1
  | .getBatchIdData .. => 2
  | .findCdk .. => 3
  | .findBatch .. => 4
  | .updateCdk .. => 5
  | .updateBatch .. => 6
  | .addUserCdk _ => 7
  | .succeed_1 _ => 8
  | .refused _ | .raised => 0

/-- The code of a request that is under way or rewarded. -/
def Pc.cdkData : Pc → Option CdkData
  | .getBatchIdData c _ | .findCdk c _ | .findBatch c _ | .updateCdk c _ | .updateBatch c _
  | .addUserCdk c | .succeed_1 c => some c
  | .getCdkData | .refused _ | .raised => none

/-- The two rows a request has read, as long as it needs both. -/
def Pc.rows : Pc → Option (CdkData × BatchIdData)
  | .findCdk c b | .findBatch c b | .updateCdk c b | .updateBatch c b => some (c, b)
  | _ => none

def Pc.has (n : Nat) (p : CdkData → Bool) (pc : Pc) : Bool := n ≤ pc.stage && pc.cdkData.any p

section Counting
variable (p : RewardArgs → CdkData → Bool) (l : List Request)

/-- The requests of a kind that have come to a stage. -/
def reached (n : Nat) : Nat := l.countP fun q => q.pc.has n (p q.args)

/-- The rewards of a kind. -/
def granted : Nat := reached p l 8

/-- The requests of a kind that have come to a stage and have not been answered. -/
def writing (n : Nat) : Nat := l.countP fun q => q.pc.has n (p q.args) && !q.pc.has 8 (p q.args)

/-- A request of a kind is about to add its record. -/
def adding : Bool := l.any fun q => q.pc.stage = 7 && q.pc.cdkData.any (p q.args)

end Counting

def ofCdk (id : CdkId) (args : RewardArgs) (_ : CdkData) : Bool := args.code = id

/-- The requests on a code by users who are new, or are not. -/
def ofCdkBy (isNew : Bool) (id : CdkId) (args : RewardArgs) (_ : CdkData) : Bool :=
  args.code = id ∧ args.isNew = isNew

def ofUserCdk (uId : UserId) (id : CdkId) (args : RewardArgs) (_ : CdkData) : Bool :=
  args.uId = uId ∧ args.code = id

def ofBatch (batchId : BatchId) (_ : RewardArgs) (c : CdkData) : Bool := c.batchId = batchId

def ofUser (uId : UserId) (batchId : BatchId) (args : RewardArgs) (c : CdkData) : Bool :=
  args.uId = uId ∧ c.batchId = batchId

/-- Every limit on rewards is kept, and the counters are the numbers of rewards, together with
the requests that have been counted and are still to be answered. -/
structure Redeemed (s : CdkState) : Prop where
  type1 : ∀ id row, s.cdk id = some row → row.type = .type1 →
    granted (ofCdk id) s.requests ≤ 1
  type2 : ∀ id row uId, s.cdk id = some row → row.type = .type2 →
    granted (ofUserCdk uId id) s.requests ≤ 1
  batch : ∀ uId batchId, granted (ofUser uId batchId) s.requests ≤ 1
  userNum : ∀ id row, s.cdk id = some row →
    row.userNum = granted (ofCdk id) s.requests + writing (ofCdk id) s.requests 6
  userNumN : ∀ id row, s.cdk id = some row →
    row.userNumN = granted (ofCdkBy true id) s.requests + writing (ofCdkBy true id) s.requests 6
  userNumO : ∀ id row, s.cdk id = some row →
    row.userNumO = granted (ofCdkBy false id) s.requests + writing (ofCdkBy false id) s.requests 6
  rewardNum : ∀ id row, s.batch id = some row →
    row.rewardNum.getD 0 = granted (ofBatch id) s.requests + writing (ofBatch id) s.requests 7

/-- The next call of a request rests on what still holds. -/
def Rests (s : CdkState) (args : RewardArgs) : Pc → Prop
  | .findCdk c _ => c.type = .type1 → ¬adding (ofCdk args.code) s.requests
  | .findBatch c _ => ¬adding (ofUser args.uId c.batchId) s.requests
  | .updateCdk c _ => s.cdk args.code = some c ∧ (c.type = .other →
      ¬adding (ofUser args.uId c.batchId) s.requests ∧
        ∀ r ∈ s.records, r.batchId = c.batchId → r.uId ≠ args.uId)
  | .updateBatch c b => s.batch c.batchId = some b
  | _ => True

instance (s : CdkState) (args : RewardArgs) : ∀ pc, Decidable (Rests s args pc)
  | .findCdk _ _ => inferInstanceAs (Decidable (_ → _))
  | .findBatch _ _ => inferInstanceAs (Decidable (¬_))
  | .updateCdk _ _ => inferInstanceAs (Decidable (_ ∧ (_ → _ ∧ _)))
  | .updateBatch _ _ => inferInstanceAs (Decidable (_ = _))
  | .getCdkData | .getBatchIdData .. | .addUserCdk _ | .succeed_1 _ | .refused _ | .raised =>
      isTrue trivial

/-- No request comes between another's reads and what rests on them: a row that is written is
still the one that was read, and no check is made while a record it looks for is about to be
added. A code of another type, which is not checked, goes to a user who has nothing of the
batch. -/
def Undisturbed (s : CdkState) : CdkEvent → Prop
  | .CDKReward _ => True
  | .call i _ => ∀ q ∈ s.requests[i]?, Rests s q.args q.pc

instance (s : CdkState) : ∀ e, Decidable (Undisturbed s e)
  | .CDKReward _ => isTrue trivial
  | .call _ _ => inferInstanceAs (Decidable (∀ q ∈ _, _))

/-- What holds of one request. A batch that is still as it was read has not rewarded anyone
since, so what the checks have found still holds. -/
structure Good (s : CdkState) (q : Request) : Prop where
  row : ∀ c, q.pc.cdkData = some c →
    ∃ row, s.cdk q.args.code = some row ∧ row.type = c.type ∧ row.batchId = c.batchId
  read : ∀ c b, q.pc.rows = some (c, b) →
    ∃ row, s.batch c.batchId = some row ∧ b.rewardNum.getD 0 ≤ row.rewardNum.getD 0
  cdkClear : ∀ c b, q.pc.rows = some (c, b) → 4 ≤ q.pc.stage → c.type = .type1 →
    s.batch c.batchId = some b → reached (ofCdk q.args.code) s.requests 7 = 0
  userClear : ∀ c b, q.pc.rows = some (c, b) → 5 ≤ q.pc.stage → (c.type = .other → 6 ≤ q.pc.stage) →
    s.batch c.batchId = some b → reached (ofUser q.args.uId c.batchId) s.requests 7 = 0
  recorded : ∀ c, q.pc.cdkData = some c → q.pc.stage = 8 →
    ∃ r ∈ s.records, r.cdkId = q.args.code ∧ r.batchId = c.batchId ∧ r.uId = q.args.uId

structure CdkInv (s : CdkState) : Prop where
  good : ∀ q ∈ s.requests, Good s q
  userNum : ∀ id row, s.cdk id = some row → row.userNum = reached (ofCdk id) s.requests 6 ∧
    row.userNumN = reached (ofCdkBy true id) s.requests 6 ∧
    row.userNumO = reached (ofCdkBy false id) s.requests 6
  rewardNum : ∀ id row, s.batch id = some row →
    row.rewardNum.getD 0 = reached (ofBatch id) s.requests 7
  once : ∀ id row, s.cdk id = some row → row.type = .type1 → reached (ofCdk id) s.requests 7 ≤ 1
  onceUser : ∀ uId batchId, reached (ofUser uId batchId) s.requests 7 ≤ 1

section Requests
variable {s s' : CdkState} {p : RewardArgs → CdkData → Bool} {l : List Request} {q : Request}
  {pc : Pc} {i n : Nat}

theorem reached_set (found : l[i]? = some q) :
    reached p (l.set i ⟨q.args, pc⟩) n + (if q.pc.has n (p q.args) then 1 else 0) =
      reached p l n + (if pc.has n (p q.args) then 1 else 0) := by
  induction l generalizing i with
  | nil => cases found
  | cons head l ih =>
      cases i with
      | zero =>
          obtain rfl : head = q := by simpa using found
          simp only [reached, List.set_cons_zero, List.countP_cons]
          omega
      | succ i =>
          have rest := ih (by simpa using found)
          simp only [reached, List.set_cons_succ, List.countP_cons] at rest ⊢
          omega

/-- A request that counts as much as before leaves the number as it is. -/
theorem reached_set_eq (found : l[i]? = some q)
    (same : pc.has n (p q.args) = q.pc.has n (p q.args)) :
    reached p (l.set i ⟨q.args, pc⟩) n = reached p l n := by
  have moved := @reached_set p l q pc i n found
  rw [same] at moved
  exact Nat.add_right_cancel moved

/-- A request that comes to the stage is one more of its kind. -/
theorem reached_set_next (found : l[i]? = some q) (before : q.pc.stage < n) :
    reached p (l.set i ⟨q.args, pc⟩) n = reached p l n + if pc.has n (p q.args) then 1 else 0 := by
  have moved := @reached_set p l q pc i n found
  have not : q.pc.has n (p q.args) = false := by simp [Pc.has, before]
  rwa [not, if_neg Bool.false_ne_true, add_zero] at moved

theorem reached_eq (low : n ≤ 8) : reached p l n = granted p l + writing p l n := by
  have part : ∀ q : Request,
      (q.pc.has n (p q.args) && q.pc.has 8 (p q.args)) = q.pc.has 8 (p q.args) := by
    intro q
    rw [Bool.and_eq_right_iff_imp]
    intro last
    simp only [Pc.has, Bool.and_eq_true, decide_eq_true_eq] at last ⊢
    exact ⟨low.trans last.1, last.2⟩
  rw [reached, List.countP_eq_countP_filter_add l _ fun q => q.pc.has 8 (p q.args),
    List.countP_filter, List.countP_filter]
  simp only [part]
  rfl

theorem granted_le : granted p l ≤ reached p l 7 := by
  rw [@reached_eq p l 7 (by decide)]
  exact Nat.le_add_right _ _

theorem reached_append (args : RewardArgs) :
    reached p (l ++ [⟨args, .getCdkData⟩]) n = reached p l n := by
  rw [reached, List.countP_append]
  simp [reached, Pc.has, Pc.cdkData]

theorem Pc.stage_le (pc : Pc) : pc.stage ≤ 8 := by
  cases pc <;> simp only [Pc.stage] <;> omega

theorem Pc.cdkData_of_rows {c : CdkData} {b : BatchIdData} (both : pc.rows = some (c, b)) :
    pc.cdkData = some c := by
  cases pc <;> simp_all [Pc.rows, Pc.cdkData]

theorem Pc.stage_idle (none : pc.cdkData = none) : pc.stage < 6 := by
  cases pc <;> simp_all [Pc.cdkData, Pc.stage]

/-- Where no request of a kind has been recorded or is about to be, none has been counted in
its batch. -/
theorem reached_none (pending : adding p s.requests = false)
    (absent : ∀ q ∈ s.requests, ∀ c, q.pc.cdkData = some c → q.pc.stage = 8 → ¬p q.args c) :
    reached p s.requests 7 = 0 := by
  rw [reached, List.countP_eq_zero]
  intro q mem counted
  simp only [Pc.has, Bool.and_eq_true, decide_eq_true_eq, Option.any_eq_true] at counted
  obtain ⟨come, c, data, kind⟩ := counted
  by_cases last : q.pc.stage = 8
  · exact absent q mem c data last kind
  · have bound := Pc.stage_le q.pc
    have here : q.pc.stage = 7 := by omega
    rw [adding, List.any_eq_false] at pending
    simpa [here, data, kind] using pending q mem

/-- A request that holds no two rows and has no record yet is good if its code is there. -/
theorem good_row {args : RewardArgs} (none : pc.rows = none) (early : pc.stage < 8)
    (row : ∀ c, pc.cdkData = some c →
      ∃ row, s.cdk args.code = some row ∧ row.type = c.type ∧ row.batchId = c.batchId) :
    Good s ⟨args, pc⟩ := by
  refine ⟨row, fun c b both => ?_, fun c b both => ?_, fun c b both => ?_, fun c _ last => ?_⟩
  · cases none.symm.trans both
  · cases none.symm.trans both
  · cases none.symm.trans both
  · exact absurd last early.ne

theorem good_idle (args : RewardArgs) (none : pc.cdkData = none) : Good s ⟨args, pc⟩ := by
  have early := Pc.stage_idle none
  refine good_row ?_ (by omega) fun c data => ?_
  · cases pc <;> first | rfl | cases none
  · cases none.symm.trans data

/-- What holds of a request depends on the batches, and on what the requests have come to in
them. -/
theorem Good.keep (good : Good s q)
    (rows : ∀ id row, s.cdk id = some row →
      ∃ row', s'.cdk id = some row' ∧ row'.type = row.type ∧ row'.batchId = row.batchId)
    (batch : s'.batch = s.batch) (same : ∀ p, reached p s'.requests 7 = reached p s.requests 7)
    (records : s.records ⊆ s'.records) : Good s' q := by
  refine ⟨fun c data => ?_, ?_, ?_, ?_, fun c data last => ?_⟩
  · obtain ⟨row, found, type, batchId⟩ := good.row c data
    obtain ⟨row', found', type', batchId'⟩ := rows _ row found
    exact ⟨row', found', type'.trans type, batchId'.trans batchId⟩
  · rw [batch]
    exact good.read
  · rw [batch, same]
    exact good.cdkClear
  · simp only [batch, same]
    exact good.userClear
  · obtain ⟨r, mem, names⟩ := good.recorded c data last
    exact ⟨r, records mem, names⟩

/-- A request that reads changes nothing for the others. -/
theorem inv_read (inv : CdkInv s) (found : s.requests[i]? = some q) (before : q.pc.stage < 6)
    (after : pc.stage < 6) (good : Good s ⟨q.args, pc⟩) :
    CdkInv { s with requests := s.requests.set i ⟨q.args, pc⟩ } := by
  have none : ∀ p n, 6 ≤ n →
      reached p (s.requests.set i ⟨q.args, pc⟩) n = reached p s.requests n := by
    intro p n late
    refine reached_set_eq found ?_
    rw [Pc.has, Pc.has, decide_eq_false (before.trans_le late).not_ge,
      decide_eq_false (after.trans_le late).not_ge, Bool.false_and, Bool.false_and]
  refine ⟨fun q' mem => ?_, ?_, ?_, ?_, ?_⟩
  · have old : Good s q' := by
      obtain mem | rfl := List.mem_or_eq_of_mem_set mem
      · exact inv.good q' mem
      · exact good
    exact old.keep (fun id row found => ⟨row, found, rfl, rfl⟩) rfl
      (fun p => none p 7 (by decide)) (List.Subset.refl _)
  · simp only [none _ 6 le_rfl]
    exact inv.userNum
  · simp only [none _ 7 (by decide)]
    exact inv.rewardNum
  · simp only [none _ 7 (by decide)]
    exact inv.once
  · simp only [none _ 7 (by decide)]
    exact inv.onceUser

theorem checkRows_cases (args : RewardArgs) (now : Int) (c : CdkData) (b : BatchIdData) :
    (checkRows args now c b).cdkData = none ∨ checkRows args now c b = .findCdk c b ∨
      (checkRows args now c b = .updateCdk c b ∧ c.type = .other) := by
  simp only [checkRows]
  split
  · exact .inl rfl
  split
  · exact .inl rfl
  split
  · exact .inl rfl
  split
  · exact .inl rfl
  split
  · exact .inl rfl
  split
  · exact .inl rfl
  split
  · exact .inr (.inl rfl)
  · exact .inr (.inl rfl)
  · rename_i other
    exact .inr (.inr ⟨rfl, other⟩)

section Calls
variable {c : CdkData} {b : BatchIdData}

theorem good_rows (good : Good s q) (code : q.pc.cdkData = some c)
    (found : s.batch c.batchId = some b) : Good s ⟨q.args, .findCdk c b⟩ := by
  refine ⟨fun c' data => ?_, fun c' b' both => ?_, fun c' b' _ late => ?_, fun c' b' _ late => ?_,
    fun c' _ last => ?_⟩
  · obtain rfl := Option.some.inj data
    exact good.row c code
  · obtain ⟨rfl, rfl⟩ := Prod.mk.inj (Option.some.inj both)
    exact ⟨b, found, le_rfl⟩
  · exact absurd (show 4 ≤ 3 from late) (by decide)
  · exact absurd (show 5 ≤ 3 from late) (by decide)
  · cases last

/-- No code of the other types has been looked up. -/
theorem good_other (good : Good s ⟨q.args, .findCdk c b⟩) (other : c.type = .other) :
    Good s ⟨q.args, .updateCdk c b⟩ := by
  refine ⟨good.row, good.read, fun c' b' both _ first => ?_, fun c' b' both _ late => ?_,
    fun c' _ last => nomatch last⟩
  · obtain ⟨rfl, rfl⟩ := Prod.mk.inj (Option.some.inj both)
    cases other.symm.trans first
  · obtain ⟨rfl, rfl⟩ := Prod.mk.inj (Option.some.inj both)
    exact absurd (show 6 ≤ 5 from late other) (by decide)

theorem good_findBatch (inv : CdkInv s) (good : Good s ⟨q.args, .findCdk c b⟩)
    (alone : c.type = .type1 → adding (ofCdk q.args.code) s.requests = false)
    (absent : c.type = .type1 → ∀ r ∈ s.records, r.cdkId ≠ q.args.code) :
    Good s ⟨q.args, .findBatch c b⟩ := by
  refine ⟨good.row, good.read, fun c' b' both _ first _ => ?_, fun c' b' _ late => ?_,
    fun c' _ last => nomatch last⟩
  · obtain ⟨rfl, rfl⟩ := Prod.mk.inj (Option.some.inj both)
    refine reached_none (alone first) fun q' mem c' data last kind => ?_
    obtain ⟨r, recorded, code, _⟩ := (inv.good q' mem).recorded c' data last
    exact absent first r recorded (code.trans (of_decide_eq_true kind))
  · exact absurd (show 5 ≤ 4 from late) (by decide)

/-- No request of the user has been counted in the batch. -/
theorem user_none (inv : CdkInv s)
    (alone : adding (ofUser q.args.uId c.batchId) s.requests = false)
    (absent : ∀ r ∈ s.records, r.batchId = c.batchId → r.uId ≠ q.args.uId) :
    reached (ofUser q.args.uId c.batchId) s.requests 7 = 0 := by
  refine reached_none alone fun q' mem c' data last kind => ?_
  obtain ⟨r, recorded, _, batchId, uId⟩ := (inv.good q' mem).recorded c' data last
  simp only [ofUser, decide_eq_true_eq] at kind
  exact absent r recorded (batchId.trans kind.2) (uId.trans kind.1)

theorem good_updateCdk (inv : CdkInv s) (good : Good s ⟨q.args, .findBatch c b⟩)
    (alone : adding (ofUser q.args.uId c.batchId) s.requests = false)
    (absent : ∀ r ∈ s.records, r.batchId = c.batchId → r.uId ≠ q.args.uId) :
    Good s ⟨q.args, .updateCdk c b⟩ := by
  refine ⟨good.row, good.read, fun c' b' both _ => good.cdkClear c' b' both le_rfl,
    fun c' b' both _ _ _ => ?_, fun c' _ last => nomatch last⟩
  obtain ⟨rfl, rfl⟩ := Prod.mk.inj (Option.some.inj both)
  exact user_none inv alone absent

/-- The code is counted: no request has come any further in its batch. -/
theorem inv_updateCdk (inv : CdkInv s) (found : s.requests[i]? = some q)
    (asked : q.pc = .updateCdk c b) (current : s.cdk q.args.code = some c)
    (free : c.type = .other → reached (ofUser q.args.uId c.batchId) s.requests 7 = 0) :
    CdkInv { s with
      cdk := Function.update s.cdk q.args.code
        ((s.cdk q.args.code).map (countUser q.args.isNew c))
      requests := s.requests.set i ⟨q.args, .updateBatch c b⟩ } := by
  have none : ∀ p, reached p (s.requests.set i ⟨q.args, .updateBatch c b⟩) 7 =
      reached p s.requests 7 := fun p => reached_set_eq found (by rw [asked]; rfl)
  have one : ∀ p, reached p (s.requests.set i ⟨q.args, .updateBatch c b⟩) 6 =
      reached p s.requests 6 + if p q.args c then 1 else 0 :=
    fun p => reached_set_next found (by simp [asked, Pc.stage])
  have mem : q ∈ s.requests := List.mem_of_getElem? found
  have type : (countUser q.args.isNew c c).type = c.type := by rw [countUser]; split <;> rfl
  have batchId : (countUser q.args.isNew c c).batchId = c.batchId := by
    rw [countUser]; split <;> rfl
  have rows : ∀ id row, s.cdk id = some row →
      ∃ row', Function.update s.cdk q.args.code ((s.cdk q.args.code).map
        (countUser q.args.isNew c)) id = some row' ∧ row'.type = row.type ∧
        row'.batchId = row.batchId := by
    intro id row here
    by_cases this : id = q.args.code
    · subst this
      obtain rfl := Option.some.inj (here.symm.trans current)
      exact ⟨_, by rw [Function.update_self, here]; rfl, type, batchId⟩
    · exact ⟨row, by rw [Function.update_of_ne this, here], rfl, rfl⟩
  have keep : ∀ q', Good s q' → Good { s with
      cdk := Function.update s.cdk q.args.code
        ((s.cdk q.args.code).map (countUser q.args.isNew c))
      requests := s.requests.set i ⟨q.args, .updateBatch c b⟩ } q' :=
    fun q' good => good.keep rows rfl none (List.Subset.refl _)
  refine ⟨fun q' mem' => ?_, fun id row here => ?_, ?_, fun id row here first => ?_, ?_⟩
  · obtain mem' | rfl := List.mem_or_eq_of_mem_set mem'
    · exact keep q' (inv.good q' mem')
    · have good := inv.good q mem
      refine keep _ ⟨fun c' data => good.row c' (by rw [asked]; exact data),
        fun c' b' both => good.read c' b' (by rw [asked]; exact both),
        fun c' b' both _ => good.cdkClear c' b' (by rw [asked]; exact both)
          (by simp [asked, Pc.stage]),
        fun c' b' both _ _ same => ?_, fun c' _ last => nomatch last⟩
      obtain ⟨rfl, rfl⟩ := Prod.mk.inj (Option.some.inj both)
      by_cases other : c.type = .other
      · exact free other
      · exact good.userClear c b (by rw [asked]; rfl) (by simp [asked, Pc.stage])
          (fun this => absurd this other) same
  · simp only [one]
    obtain ⟨rfl, rfl⟩ | ⟨other, here⟩ := written_cases current here
    · obtain ⟨total, ofNew, ofOld⟩ := inv.userNum _ c current
      cases isNew : q.args.isNew <;> simp [countUser, ofCdk, ofCdkBy, isNew, total, ofNew, ofOld]
    · simpa [ofCdk, ofCdkBy, Ne.symm other] using inv.userNum id row here
  · simp only [none]
    exact inv.rewardNum
  · rw [none]
    obtain ⟨rfl, rfl⟩ | ⟨_, here⟩ := written_cases current here
    · exact inv.once _ c current (type.symm.trans first)
    · exact inv.once id row here first
  · simp only [none]
    exact inv.onceUser

/-- The batch is counted: whoever has read it before is behind. -/
theorem inv_updateBatch (inv : CdkInv s) (found : s.requests[i]? = some q)
    (asked : q.pc = .updateBatch c b) (current : s.batch c.batchId = some b) :
    CdkInv { s with
      batch := Function.update s.batch c.batchId ((s.batch c.batchId).map (countReward b))
      requests := s.requests.set i ⟨q.args, .addUserCdk c⟩ } := by
  have mem : q ∈ s.requests := List.mem_of_getElem? found
  have mine := inv.good q mem
  have one : ∀ p, reached p (s.requests.set i ⟨q.args, .addUserCdk c⟩) 7 =
      reached p s.requests 7 + if p q.args c then 1 else 0 :=
    fun p => reached_set_next found (by simp [asked, Pc.stage])
  have none : ∀ p, reached p (s.requests.set i ⟨q.args, .addUserCdk c⟩) 6 =
      reached p s.requests 6 := fun p => reached_set_eq found (by rw [asked]; rfl)
  obtain ⟨own, ownRow, ownType, ownBatch⟩ := mine.row c (by rw [asked]; rfl)
  have raised : (countReward b b).rewardNum.getD 0 = b.rewardNum.getD 0 + 1 := rfl
  have keep : ∀ q', Good s q' → Good { s with
      batch := Function.update s.batch c.batchId ((s.batch c.batchId).map (countReward b))
      requests := s.requests.set i ⟨q.args, .addUserCdk c⟩ } q' := by
    intro q' good
    -- a request of the batch has read a smaller number than the new one
    have behind : ∀ c' b', q'.pc.rows = some (c', b') →
        Function.update s.batch c.batchId ((s.batch c.batchId).map (countReward b)) c'.batchId =
          some b' → c'.batchId ≠ c.batchId ∧ s.batch c'.batchId = some b' := by
      intro c' b' both same
      obtain ⟨here, rfl⟩ | ⟨other, same⟩ := written_cases current same
      · obtain ⟨row, read, less⟩ := good.read c' _ both
        rw [here, current] at read
        obtain rfl := Option.some.inj read
        rw [raised] at less
        omega
      · exact ⟨other, same⟩
    refine ⟨good.row, fun c' b' both => ?_, fun c' b' both late first same => ?_,
      fun c' b' both late checked same => ?_, good.recorded⟩
    · obtain ⟨row, read, less⟩ := good.read c' b' both
      by_cases here : c'.batchId = c.batchId
      · rw [here, current] at read
        obtain rfl := Option.some.inj read
        exact ⟨countReward b b, by simp [here, current], less.trans (Nat.le_succ _)⟩
      · exact ⟨row, by simp [here, read], less⟩
    · obtain ⟨other, same⟩ := behind c' b' both same
      have apart : ¬q.args.code = q'.args.code := by
        intro code
        obtain ⟨row, theirs, _, batchId⟩ := good.row c' (Pc.cdkData_of_rows both)
        rw [← code, ownRow] at theirs
        obtain rfl := Option.some.inj theirs
        exact other (batchId.symm.trans ownBatch)
      rw [one, good.cdkClear c' b' both late first same]
      simp [ofCdk, apart]
    · obtain ⟨other, same⟩ := behind c' b' both same
      rw [one, good.userClear c' b' both late checked same]
      simp [ofUser, Ne.symm other]
  refine ⟨fun q' mem' => ?_, ?_, fun id row here => ?_, fun id row here first => ?_,
    fun uId batchId => ?_⟩
  · obtain mem' | rfl := List.mem_or_eq_of_mem_set mem'
    · exact keep q' (inv.good q' mem')
    · refine keep _ (good_row rfl (by simp [Pc.stage]) fun c' data => mine.row c' ?_)
      rw [asked]
      exact data
  · simp only [none]
    exact inv.userNum
  · rw [one]
    obtain ⟨rfl, rfl⟩ | ⟨other, here⟩ := written_cases current here
    · rw [raised, inv.rewardNum _ b current]
      simp [ofBatch]
    · rw [inv.rewardNum id row here]
      simp [ofBatch, Ne.symm other]
  · rw [one]
    by_cases here' : q.args.code = id
    · subst here'
      obtain rfl := Option.some.inj (here.symm.trans ownRow)
      have clear := mine.cdkClear c b (by rw [asked]; rfl) (by simp [asked, Pc.stage])
        (ownType.symm.trans first) current
      rw [clear]
      split <;> decide
    · simpa [ofCdk, here'] using inv.once id row here first
  · rw [one]
    by_cases here : q.args.uId = uId ∧ c.batchId = batchId
    · obtain ⟨rfl, rfl⟩ := here
      have clear := mine.userClear c b (by rw [asked]; rfl) (by simp [asked, Pc.stage])
        (fun _ => by simp [asked, Pc.stage]) current
      rw [clear]
      split <;> decide
    · simpa [ofUser, here] using inv.onceUser uId batchId

/-- The reward is recorded. -/
theorem inv_addUserCdk (inv : CdkInv s) (found : s.requests[i]? = some q)
    (asked : q.pc = .addUserCdk c) :
    CdkInv { s with
      records := s.records ++ [⟨q.args.uId, c.batchId, q.args.code, q.args.channel⟩]
      requests := s.requests.set i ⟨q.args, .succeed_1 c⟩ } := by
  have none : ∀ p n, n ≤ 7 → reached p (s.requests.set i ⟨q.args, .succeed_1 c⟩) n =
      reached p s.requests n := by
    intro p n early
    refine reached_set_eq found ?_
    rw [asked, Pc.has, Pc.has]
    simp [Pc.stage, Pc.cdkData, early, early.trans (Nat.le_succ 7)]
  have mine := inv.good q (List.mem_of_getElem? found)
  refine ⟨fun q' mem' => ?_, ?_, ?_, ?_, ?_⟩
  · obtain mem' | rfl := List.mem_or_eq_of_mem_set mem'
    · exact (inv.good q' mem').keep (fun id row found => ⟨row, found, rfl, rfl⟩) rfl
        (fun p => none p 7 le_rfl) (List.subset_append_left _ _)
    · refine ⟨fun c' data => mine.row c' (by rw [asked]; exact data), ?_, ?_, ?_, ?_⟩
      · exact fun _ _ both => nomatch both
      · exact fun _ _ both => nomatch both
      · exact fun _ _ both => nomatch both
      · intro c' data _
        obtain rfl := Option.some.inj data
        exact ⟨_, List.mem_append_right _ List.mem_cons_self, rfl, rfl, rfl⟩
  · simp only [none _ 6 (by decide)]
    exact inv.userNum
  · simp only [none _ 7 le_rfl]
    exact inv.rewardNum
  · simp only [none _ 7 le_rfl]
    exact inv.once
  · simp only [none _ 7 le_rfl]
    exact inv.onceUser

/-- One call of the database on behalf of a request. -/
theorem step_call {now : Int} (moved : s.step (.call i now) = some s') :
    ∃ q t pc, s.requests[i]? = some q ∧ s.callDb q.args now q.pc = some (t, pc) ∧
      s' = { t with requests := s.requests.set i ⟨q.args, pc⟩ } := by
  simp only [CdkState.step, Option.bind_eq_bind, Option.bind_eq_some_iff, Prod.exists,
    Option.some.injEq] at moved
  obtain ⟨q, found, t, pc, called, rfl⟩ := moved
  exact ⟨q, t, pc, found, called, rfl⟩

theorem inv_call {now : Int} (inv : CdkInv s) (guard : Undisturbed s (.call i now))
    (moved : s.step (.call i now) = some s') : CdkInv s' := by
  obtain ⟨q, t, pc, found, called, rfl⟩ := step_call moved
  have mine := inv.good q (List.mem_of_getElem? found)
  have alone := guard q found
  have same : ∀ next, q.pc = next → Good s ⟨q.args, next⟩ := fun next asked => asked ▸ mine
  cases asked : q.pc with
  | getCdkData =>
      rw [asked] at called
      obtain ⟨rfl, rfl⟩ := Prod.mk.inj (Option.some.inj called)
      cases code : s.cdk q.args.code with
      | none =>
          exact inv_read inv found (by simp [asked, Pc.stage]) (by simp [Pc.stage])
            (good_idle q.args rfl)
      | some c =>
          refine inv_read inv found (by simp [asked, Pc.stage]) (by simp [Pc.stage])
            (good_row rfl (by simp [Pc.stage]) fun c' data => ?_)
          obtain rfl := Option.some.inj data
          exact ⟨c, code, rfl, rfl⟩
  | getBatchIdData c currentAt =>
      rw [asked] at called
      obtain ⟨rfl, rfl⟩ := Prod.mk.inj (Option.some.inj called)
      cases row : s.batch c.batchId with
      | none =>
          exact inv_read inv found (by simp [asked, Pc.stage]) (by simp [Pc.stage])
            (good_idle q.args rfl)
      | some b =>
          have rows := good_rows mine (by rw [asked]; rfl) row
          simp only
          obtain idle | next | ⟨next, other⟩ := checkRows_cases q.args currentAt c b
          · exact inv_read inv found (by simp [asked, Pc.stage]) (Pc.stage_idle idle)
              (good_idle q.args idle)
          · rw [next]
            exact inv_read inv found (by simp [asked, Pc.stage]) (by simp [Pc.stage]) rows
          · rw [next]
            exact inv_read inv found (by simp [asked, Pc.stage]) (by simp [Pc.stage])
              (good_other rows other)
  | findCdk c b =>
      rw [asked] at called alone
      obtain ⟨rfl, rfl⟩ := Prod.mk.inj (Option.some.inj called)
      have refused : ∀ ret, CdkInv { s with requests := s.requests.set i ⟨q.args, .refused ret⟩ } :=
        fun ret => inv_read inv found (by simp [asked, Pc.stage]) (by simp [Pc.stage])
          (good_idle q.args rfl)
      have passed : (c.type = .type1 → ∀ r ∈ s.records, r.cdkId ≠ q.args.code) →
          CdkInv { s with requests := s.requests.set i ⟨q.args, .findBatch c b⟩ } :=
        fun absent => inv_read inv found (by simp [asked, Pc.stage]) (by simp [Pc.stage])
          (good_findBatch inv (same _ asked) (by simpa [Rests] using alone) absent)
      split
      · split
        · exact refused _
        · rename_i absent
          exact passed fun _ => by simpa using absent
      · split
        · exact refused _
        · rename_i other _
          exact passed fun first => absurd first other
  | findBatch c b =>
      rw [asked] at called alone
      obtain ⟨rfl, rfl⟩ := Prod.mk.inj (Option.some.inj called)
      split
      · exact inv_read inv found (by simp [asked, Pc.stage]) (by simp [Pc.stage])
          (good_idle q.args rfl)
      · rename_i absent
        exact inv_read inv found (by simp [asked, Pc.stage]) (by simp [Pc.stage])
          (good_updateCdk inv (same _ asked) (by simpa [Rests] using alone)
            (by simpa using absent))
  | updateCdk c b =>
      rw [asked] at called alone
      obtain ⟨rfl, rfl⟩ := Prod.mk.inj (Option.some.inj called)
      refine inv_updateCdk inv found asked alone.1 fun other => ?_
      obtain ⟨pending, absent⟩ := alone.2 other
      exact user_none inv (by simpa using pending) absent
  | updateBatch c b =>
      rw [asked] at called alone
      obtain ⟨rfl, rfl⟩ := Prod.mk.inj (Option.some.inj called)
      exact inv_updateBatch inv found asked alone
  | addUserCdk c =>
      rw [asked] at called
      obtain ⟨rfl, rfl⟩ := Prod.mk.inj (Option.some.inj called)
      exact inv_addUserCdk inv found asked
  | succeed_1 c =>
      rw [asked] at called
      cases called
  | refused ret =>
      rw [asked] at called
      cases called
  | raised =>
      rw [asked] at called
      cases called

theorem cdk_step {e : CdkEvent} (inv : CdkInv s) (guard : Undisturbed s e)
    (moved : s.step e = some s') : CdkInv s' := by
  cases e with
  | call i now => exact inv_call inv guard moved
  | CDKReward args =>
      obtain rfl := Option.some.inj moved
      refine ⟨fun q mem => ?_, ?_, ?_, ?_, ?_⟩
      · obtain mem | mem := List.mem_append.mp mem
        · exact (inv.good q mem).keep (fun id row found => ⟨row, found, rfl, rfl⟩) rfl
            (fun p => reached_append args) (List.Subset.refl _)
        · obtain rfl := List.mem_singleton.mp mem
          exact good_idle args rfl
      · simp only [reached_append]
        exact inv.userNum
      · simp only [reached_append]
        exact inv.rewardNum
      · simp only [reached_append]
        exact inv.once
      · simp only [reached_append]
        exact inv.onceUser

end Calls

theorem cdk_start (cdk : CdkId → Option CdkData) (batch : BatchId → Option BatchIdData) :
    CdkInv (CdkState.start cdk batch) := by
  refine ⟨fun q mem => absurd mem List.not_mem_nil, fun id row found => ?_, fun id row found => ?_,
    fun _ _ _ _ => Nat.zero_le 1, fun _ _ => Nat.zero_le 1⟩
  · obtain ⟨_, _, rfl⟩ := Option.map_eq_some_iff.mp found
    exact ⟨rfl, rfl, rfl⟩
  · obtain ⟨_, _, rfl⟩ := Option.map_eq_some_iff.mp found
    rfl

theorem CdkInv.redeemed (inv : CdkInv s) : Redeemed s := by
  refine ⟨fun id row found first => granted_le.trans (inv.once id row found first),
    fun id row uId found _ => ?_, fun uId batchId => granted_le.trans (inv.onceUser uId batchId),
    fun id row found => ?_, fun id row found => ?_, fun id row found => ?_,
    fun id row found => ?_⟩
  · refine le_trans (List.countP_mono_left fun q mem kind => ?_)
      (granted_le.trans (inv.onceUser uId row.batchId))
    simp only [Pc.has, ofUserCdk, ofUser, Bool.and_eq_true, decide_eq_true_eq,
      Option.any_eq_true] at kind ⊢
    obtain ⟨last, c, data, user, code⟩ := kind
    obtain ⟨row', found', _, batchId⟩ := (inv.good q mem).row c data
    rw [code, found] at found'
    obtain rfl := Option.some.inj found'
    exact ⟨last, c, data, user, batchId.symm⟩
  · rw [(inv.userNum id row found).1, reached_eq (by decide)]
  · rw [(inv.userNum id row found).2.1, reached_eq (by decide)]
  · rw [(inv.userNum id row found).2.2, reached_eq (by decide)]
  · rw [inv.rewardNum id row found, reached_eq (by decide)]

end Requests

section Runs
variable {cdk : CdkId → Option CdkData} {batch : BatchId → Option BatchIdData}
  {es : List CdkEvent} {s : CdkState}

/-- In every interleaving of undisturbed requests the limits on rewards are kept, and the
counters of the codes and the batches are the numbers of rewards. -/
theorem run_redeemed (run : Run CdkState.step Undisturbed (CdkState.start cdk batch) es s) :
    Redeemed s :=
  CdkInv.redeemed (run.invariant CdkInv (cdk_start cdk batch) fun _ _ _ => cdk_step)

/-- A code for one user, in a batch of its own. -/
def giftCode : CdkId → Option CdkData := fun id =>
  if id = ['A', '7'] then
    some ⟨.type1, 1, 0, 100, some ["all"], [⟨10001, 500000⟩], 0, 0, 0, true⟩
  else none

def giftBatch : BatchId → Option BatchIdData := fun id =>
  if id = 1 then some ⟨0, 100, true, none⟩ else none

def ask (uId : UserId) : RewardArgs := ⟨some ['a', '7'], uId, true, some "huawei"⟩

/-- A second user asks when the first has been answered. -/
def inTurn : List CdkEvent :=
  .CDKReward (ask 1) :: (List.replicate 7 (.call 0 5) ++
    .CDKReward (ask 2) :: List.replicate 3 (.call 1 6))

/-- The second user is refused. -/
theorem run_redeemed_in_turn :
    ∃ s, Run CdkState.step Undisturbed (CdkState.start giftCode giftBatch) inTurn s ∧
      (s.requests.map fun q => q.pc.stage) = [8, 0] ∧ Redeemed s := by
  have run := @run_of_guarded _ _ CdkState.step Undisturbed _ (CdkState.start giftCode giftBatch)
    inTurn _ rfl
  exact ⟨_, run, by decide, run_redeemed run⟩

/-- Two users make their checks before either has been recorded. -/
theorem redeemed_fails :
    ¬∀ cdk batch es s, Run CdkState.step anyStep (CdkState.start cdk batch) es s → Redeemed s := by
  intro all
  have run := @run_of_exec _ _ CdkState.step (CdkState.start giftCode giftBatch)
    ([.CDKReward (ask 1), .CDKReward (ask 2)] ++
      (List.replicate 7 [.call 0 5, .call 1 5]).flatten) _ rfl
  exact absurd ((all _ _ _ _ run).type1 ['A', '7'] _ rfl rfl) (by decide)

end Runs

end HuluLandlord.Services
