import HuluLandlord.Agent.TxzLevel

/-!
The rewards of the battle pass on request. The status of a level stands for two flags, and
whatever a claim asks for, it hands out what is asked and not yet flagged. So the record
of a period says exactly what has been granted in it.
-/
namespace HuluLandlord.Agent
open Transition Table

/-- The status of a level of which these rewards have been taken. -/
def statusOf (normal senior : Bool) : Option StatusReward :=
  match normal, senior with
  | false, false => none
  | true, false => some .normal
  | false, true => some .senior
  | true, true => some .normalAndSenior

namespace PassRecord

/-- The normal, or the senior, reward of a level has been taken. -/
def taken (r : PassRecord) (isSenior : Bool) (lv : Int) : Bool :=
  match r.lvList lv with
  | none => false
  | some .normal => !isSenior
  | some .senior => isSenior
  | some .normalAndSenior => true

end PassRecord

/-- What a type of claim asks for. -/
def RewardType.wants (type : RewardType) (isSenior : Bool) : Bool :=
  match type with
  | .normal => !isSenior
  | .senior => isSenior
  | .normalAndSenior => true

namespace Claim

/-- The rewards of a level are put on the lists, and flagged. -/
def give (c : Claim) (l : Int) (row : PassRow) (normal senior : Bool) : Claim where
  record := { c.record with
    lvList := Function.update c.record.lvList l
      (statusOf (c.record.taken false l || normal) (c.record.taken true l || senior)) }
  rNormalList := c.rNormalList ++ if normal then [row] else []
  rSeniorList := c.rSeniorList ++ if senior then [row] else []

end Claim

section Rewards
variable {cfg : PassTable} {r : PassRecord} {c : Claim} {l lv : Int} {row : PassRow}
  {type : RewardType} {isSenior : Bool}

/-- One level of a claim: what is wanted and has not been taken. -/
theorem reward_give (found : cfg.GetCfgByLv l = some row) (reached : l ≤ c.record.lv) :
    (if c.record.checkReward l type then c.reward cfg l type else c) =
      c.give l row (type.wants false && !c.record.taken false l)
        (type.wants true && !c.record.taken true l) := by
  have low : ¬(c.record.lv : Int) < l := not_lt.mpr reached
  have same : ∀ status, c.record.lvList l = status →
      Function.update c.record.lvList l status = c.record.lvList :=
    fun status here => Function.update_eq_self_iff.mpr here.symm
  cases status : c.record.lvList l with
  | none =>
      cases type <;>
        simp [Claim.reward, Claim.give, PassRecord.checkReward, PassRecord.taken,
          PassRecord.SetLvStatus, RewardType.wants, statusOf, status, low, found]
  | some status' =>
      have kept := same _ status
      cases type <;> cases status' <;>
        simp [Claim.reward, Claim.give, PassRecord.checkReward, PassRecord.taken,
          PassRecord.SetLvStatus, RewardType.wants, statusOf, status, low, found, kept]

theorem reward_none (missing : cfg.GetCfgByLv l = none ∨ (c.record.lv : Int) < l) :
    (if c.record.checkReward l type then c.reward cfg l type else c) = c := by
  have none : c.reward cfg l type = c := by
    rw [Claim.reward]
    obtain missing | above := missing
    · split
      · rfl
      · simp only [missing]
    · rw [if_pos above]
  rw [none, ite_self]

theorem taken_statusOf {normal senior : Bool} (here : r.lvList l = statusOf normal senior) :
    r.taken isSenior l = if isSenior then senior else normal := by
  rw [PassRecord.taken, here]
  cases normal <;> cases senior <;> cases isSenior <;> rfl

theorem taken_give (normal senior : Bool) (l' : Int) :
    (c.give l row normal senior).record.taken isSenior l' =
      (c.record.taken isSenior l' || (decide (l' = l) && if isSenior then senior else normal)) := by
  by_cases here : l' = l
  · subst here
    have status : (c.give l' row normal senior).record.lvList l' =
        statusOf (c.record.taken false l' || normal) (c.record.taken true l' || senior) :=
      Function.update_self ..
    rw [taken_statusOf status]
    cases isSenior <;> simp
  · have status : (c.give l row normal senior).record.lvList l' = c.record.lvList l' :=
      Function.update_of_ne here ..
    rw [PassRecord.taken, status, decide_eq_false here, Bool.false_and, Bool.or_false,
      PassRecord.taken]

/-- The row of a level that has been reached. -/
def reachedRow (cfg : PassTable) (r : PassRecord) (l : Int) : Option PassRow :=
  if l ≤ r.lv then cfg.GetCfgByLv l else none

/-- What a claim of this type finds in these rows. -/
def wantedRows (r : PassRecord) (type : RewardType) (isSenior : Bool) (rows : List PassRow) :
    List PassRow :=
  rows.filter fun row => type.wants isSenior && !r.taken isSenior row.level

/-- The loop of a claim over different levels. -/
structure Claimed (r : PassRecord) (type : RewardType) (rows : List PassRow) (c c' : Claim) :
    Prop where
  record : c'.record = { r with lvList := c'.record.lvList }
  normal : c'.rNormalList = c.rNormalList ++ wantedRows r type false rows
  senior : c'.rSeniorList = c.rSeniorList ++ wantedRows r type true rows
  taken : ∀ isSenior l, c'.record.taken isSenior l =
    (r.taken isSenior l || (type.wants isSenior && rows.any fun row => (row.level : Int) = l))

theorem claim_loop (levels : List Int) (different : levels.Nodup) (c : Claim) :
    Claimed c.record type (levels.filterMap (reachedRow cfg c.record)) c
      (levels.foldl (fun c l => if c.record.checkReward l type then c.reward cfg l type else c)
        c) := by
  induction levels generalizing c with
  | nil => exact ⟨rfl, by simp [wantedRows], by simp [wantedRows], by simp⟩
  | cons l levels ih =>
      obtain ⟨fresh, different⟩ := List.nodup_cons.mp different
      rw [List.foldl_cons, List.filterMap_cons]
      cases found : reachedRow cfg c.record l with
      | none =>
          have missing : cfg.GetCfgByLv l = none ∨ (c.record.lv : Int) < l := by
            rw [reachedRow] at found
            split at found
            · exact .inl found
            · exact .inr (by omega)
          rw [reward_none missing]
          exact ih different c
      | some row =>
          rw [reachedRow] at found
          split at found
          · rename_i reached
            rw [reward_give found reached]
            have level := (PassTable.getCfgByLv_some found).2
            generalize normal : (type.wants false && !c.record.taken false l) = givesNormal
            generalize senior : (type.wants true && !c.record.taken true l) = givesSenior
            have rest := ih different (c.give l row givesNormal givesSenior)
            have rows : levels.filterMap (reachedRow cfg
                (c.give l row givesNormal givesSenior).record) =
                levels.filterMap (reachedRow cfg c.record) := rfl
            rw [rows] at rest
            -- the levels that follow are others, so nothing has changed for them
            have same : ∀ isSenior, wantedRows (c.give l row givesNormal givesSenior).record type
                isSenior (levels.filterMap (reachedRow cfg c.record)) =
                wantedRows c.record type isSenior (levels.filterMap (reachedRow cfg c.record)) := by
              intro isSenior
              refine List.filter_congr fun other mem => ?_
              obtain ⟨l', mem, found'⟩ := List.mem_filterMap.mp mem
              rw [reachedRow] at found'
              split at found'
              · have level' := (PassTable.getCfgByLv_some found').2
                have ne : (other.level : Int) ≠ l := by
                  rw [level']
                  exact fun same => fresh (same ▸ mem)
                rw [taken_give, decide_eq_false ne, Bool.false_and, Bool.or_false]
              · cases found'
            refine ⟨rest.record, ?_, ?_, ?_⟩
            · rw [rest.normal, same, Claim.give, wantedRows, wantedRows, List.filter_cons, level,
                normal]
              cases givesNormal <;> simp
            · rw [rest.senior, same, Claim.give, wantedRows, wantedRows, List.filter_cons, level,
                senior]
              cases givesSenior <;> simp
            · intro isSenior l'
              rw [rest.taken, taken_give, List.any_cons, level]
              by_cases here : l' = l
              · subst here
                cases isSenior <;> simp [← normal, ← senior] <;> grind
              · have ne : ¬l = l' := fun same => here same.symm
                simp [here, ne]
          · cases found

theorem claimLevels_nodup (r : PassRecord) (lv : Int) : (r.claimLevels lv).Nodup := by
  rw [PassRecord.claimLevels]
  split
  · exact (List.nodup_range' 1).map fun a b same => Int.ofNat.inj same
  · exact List.nodup_singleton lv

/-- The rows a claim goes through. -/
def claimRows (cfg : PassTable) (r : PassRecord) (lv : Int) : List PassRow :=
  (r.claimLevels lv).filterMap (reachedRow cfg r)

theorem level_reachedRow (found : reachedRow cfg r l = some row) :
    (row.level : Int) = l ∧ row.level ≤ r.lv := by
  rw [reachedRow] at found
  split at found
  · rename_i reached
    have level := (PassTable.getCfgByLv_some found).2
    exact ⟨level, by omega⟩
  · cases found

theorem claimRows_reached : ∀ row ∈ claimRows cfg r lv, row.level ≤ r.lv := by
  intro row mem
  obtain ⟨l, _, found⟩ := List.mem_filterMap.mp mem
  exact (level_reachedRow found).2

theorem claimRows_nodup : ((claimRows cfg r lv).map PassRow.level).Nodup := by
  have keyed : ∀ levels : List Int, levels.Nodup →
      ((levels.filterMap (reachedRow cfg r)).map PassRow.level).Nodup := by
    intro levels
    induction levels with
    | nil => exact fun _ => List.nodup_nil
    | cons l levels ih =>
        intro different
        obtain ⟨fresh, different⟩ := List.nodup_cons.mp different
        rw [List.filterMap_cons]
        cases found : reachedRow cfg r l with
        | none => exact ih different
        | some row =>
            refine List.nodup_cons.mpr ⟨fun again => fresh ?_, ih different⟩
            obtain ⟨other, mem, same⟩ := List.mem_map.mp again
            obtain ⟨l', mem, found'⟩ := List.mem_filterMap.mp mem
            have level := (level_reachedRow found).1
            have level' := (level_reachedRow found').1
            obtain rfl : l = l' := by omega
            exact mem
  exact keyed _ (claimLevels_nodup r lv)

/-- The type a claim comes down to. -/
def claimType (r : PassRecord) (lv : Int) (type : Option RewardType) : RewardType :=
  r.ValidType (if lv = 0 then some .normalAndSenior else type)

theorem validType_gold {type : Option RewardType} (senior : (r.ValidType type).wants true = true) :
    r.HasGold = true := by
  by_contra poor
  cases type with
  | none => cases senior
  | some type =>
      cases type with
      | normal => cases senior
      | senior =>
          rw [PassRecord.ValidType, if_neg poor] at senior
          cases senior
      | normalAndSenior =>
          rw [PassRecord.ValidType, if_neg poor] at senior
          cases senior

/-- The lists a claim fills, whether it has found anything or not. -/
def claimLoop (cfg : PassTable) (r : PassRecord) (lv : Int) (type : Option RewardType) : Claim :=
  (r.claimLevels lv).foldl (fun c l =>
    if c.record.checkReward l (claimType r lv type) then c.reward cfg l (claimType r lv type)
    else c) ⟨r, [], []⟩

theorem claimLoop_claimed (type : Option RewardType) :
    Claimed r (claimType r lv type) (claimRows cfg r lv) ⟨r, [], []⟩ (claimLoop cfg r lv type) :=
  claim_loop _ (claimLevels_nodup r lv) ⟨r, [], []⟩

theorem rewardList_eq (type : Option RewardType) :
    r.rewardList cfg lv type =
      if (if lv = 0 then 1 else lv) > (r.lv : Int) then .error .empty_7
      else if (claimLoop cfg r lv type).rNormalList = [] ∧
        (claimLoop cfg r lv type).rSeniorList = [] then .error .noUse_8
      else .ok (claimLoop cfg r lv type) := rfl

theorem rewardList_ok {type : Option RewardType} {claim : Claim}
    (listed : r.rewardList cfg lv type = .ok claim) :
    claim = claimLoop cfg r lv type ∧ ¬(claim.rNormalList = [] ∧ claim.rSeniorList = []) := by
  rw [rewardList_eq] at listed
  generalize claimLoop cfg r lv type = loop at listed ⊢
  by_cases above : (if lv = 0 then 1 else lv) > (r.lv : Int)
  · rw [if_pos above] at listed
    cases listed
  rw [if_neg above] at listed
  by_cases found : loop.rNormalList = [] ∧ loop.rSeniorList = []
  · rw [if_pos found] at listed
    cases listed
  rw [if_neg found] at listed
  obtain rfl := Except.ok.inj listed
  exact ⟨rfl, found⟩

end Rewards

/-- The record says what has been granted in its period. -/
structure PassRecord.Grants (r : PassRecord) (no : Nat) (granted : List PassGrant) : Prop where
  reached : ∀ g ∈ granted, g.no = no → g.level ≤ r.lv
  gold : ∀ g ∈ granted, g.no = no → g.isSenior = true → r.HasGold = true
  taken : ∀ isSenior (level : Nat),
    r.taken isSenior level = true ↔ ⟨no, level, isSenior⟩ ∈ granted

/-- What a claim grants. -/
def Claim.grants (no : Nat) (claim : Claim) : List PassGrant :=
  claim.rNormalList.map (fun c => ⟨no, c.level, false⟩) ++
    claim.rSeniorList.map (fun c => ⟨no, c.level, true⟩)

section Grants
variable {cfg : PassTable} {r r' : PassRecord} {type : RewardType} {rows : List PassRow}
  {claim : Claim} {no : Nat} {granted : List PassGrant} {g : PassGrant}

theorem mem_grants (claimed : Claimed r type rows ⟨r, [], []⟩ claim) :
    g ∈ claim.grants no ↔ g.no = no ∧ type.wants g.isSenior = true ∧
      r.taken g.isSenior g.level = false ∧ ∃ row ∈ rows, row.level = g.level := by
  have listed : ∀ isSenior, g ∈ (wantedRows r type isSenior rows).map
      (fun c => (⟨no, c.level, isSenior⟩ : PassGrant)) ↔ g.isSenior = isSenior ∧ g.no = no ∧
        type.wants isSenior = true ∧ r.taken isSenior g.level = false ∧
        ∃ row ∈ rows, row.level = g.level := by
    intro isSenior
    simp only [List.mem_map, wantedRows, List.mem_filter, Bool.and_eq_true, Bool.not_eq_true']
    constructor
    · rintro ⟨row, ⟨mem, wants, fresh⟩, rfl⟩
      exact ⟨rfl, rfl, wants, fresh, row, mem, rfl⟩
    · rintro ⟨rfl, rfl, wants, fresh, row, mem, level⟩
      obtain ⟨no, l, isSenior⟩ := g
      obtain rfl : row.level = l := level
      exact ⟨row, ⟨mem, wants, fresh⟩, rfl⟩
  rw [Claim.grants, claimed.normal, claimed.senior, List.nil_append, List.nil_append,
    List.mem_append, listed, listed]
  cases g.isSenior with
  | false => simp
  | true => simp

theorem grants_nodup (claimed : Claimed r type rows ⟨r, [], []⟩ claim)
    (keys : (rows.map PassRow.level).Nodup) : (claim.grants no).Nodup := by
  have each : ∀ isSenior, ((wantedRows r type isSenior rows).map
      (fun c => (⟨no, c.level, isSenior⟩ : PassGrant))).Nodup := by
    intro isSenior
    have levels : ((wantedRows r type isSenior rows).map PassRow.level).Nodup :=
      keys.sublist (List.filter_sublist.map _)
    have made := levels.map (f := fun l => (⟨no, l, isSenior⟩ : PassGrant))
      fun a b same => congrArg PassGrant.level same
    rwa [List.map_map] at made
  rw [Claim.grants, claimed.normal, claimed.senior, List.nil_append, List.nil_append]
  refine List.nodup_append.mpr ⟨each false, each true, ?_⟩
  rintro a normal b senior rfl
  obtain ⟨_, _, rfl⟩ := List.mem_map.mp normal
  obtain ⟨_, _, same⟩ := List.mem_map.mp senior
  nomatch congrArg PassGrant.isSenior same

/-- A claim grants nothing twice, and nothing that is not due. -/
theorem PassRecord.Grants.extend (grants : r.Grants no granted) (nodup : granted.Nodup)
    (claimed : Claimed r type rows ⟨r, [], []⟩ claim) (keys : (rows.map PassRow.level).Nodup)
    (reached : ∀ row ∈ rows, row.level ≤ r.lv)
    (gold : type.wants true = true → r.HasGold = true) :
    (granted ++ claim.grants no).Nodup ∧ claim.record.Grants no (granted ++ claim.grants no) := by
  have lv : claim.record.lv = r.lv := by
    rw [claimed.record]
  have hasGold : claim.record.HasGold = r.HasGold := by
    rw [claimed.record]
    rfl
  refine ⟨List.nodup_append.mpr ⟨nodup, grants_nodup claimed keys, ?_⟩, ?_, ?_, ?_⟩
  · rintro g old _ new rfl
    obtain ⟨rfl, _, fresh, _⟩ := (mem_grants claimed).mp new
    have taken := (grants.taken g.isSenior g.level).mpr old
    exact absurd taken (by simp [fresh])
  · intro g mem here
    rw [lv]
    obtain old | new := List.mem_append.mp mem
    · exact grants.reached g old here
    · obtain ⟨_, _, _, row, mem, level⟩ := (mem_grants claimed).mp new
      exact level ▸ reached row mem
  · intro g mem here senior
    rw [hasGold]
    obtain old | new := List.mem_append.mp mem
    · exact grants.gold g old here senior
    · obtain ⟨_, wants, _⟩ := (mem_grants claimed).mp new
      exact gold (senior ▸ wants)
  · intro isSenior level
    rw [List.mem_append, ← grants.taken, mem_grants claimed, claimed.taken, Bool.or_eq_true,
      Bool.and_eq_true, List.any_eq_true]
    simp only [true_and, decide_eq_true_eq, Int.natCast_inj]
    cases r.taken isSenior level with
    | false => simp
    | true => simp

/-- A record that has gone further in the same period. -/
theorem PassRecord.Grants.mono (grants : r.Grants no granted) (lv : r.lv ≤ r'.lv)
    (gold : r.HasGold = true → r'.HasGold = true) (lvList : r'.lvList = r.lvList) :
    r'.Grants no granted := by
  refine ⟨fun g mem here => (grants.reached g mem here).trans lv,
    fun g mem here senior => gold (grants.gold g mem here senior), ?_⟩
  intro isSenior level
  rw [← grants.taken, PassRecord.taken, PassRecord.taken, lvList]

theorem gold_addStory (id : StorId) (gold : r.HasGold = true) :
    (r.addStory id).HasGold = true := by
  rw [PassRecord.addStory]
  split
  · exact gold
  · rw [PassRecord.HasGold] at gold ⊢
    rw [List.any_append, gold]
    rfl

end Grants

/-- The events that look at the record. -/
def TxzEvent.checks : TxzEvent → Bool
  | .userStoreBuy id => id = storeTxzGold ∨ id = storeTxzChaoGold_1 ∨ id = storeTxzChaoGold_2
  | .tick _ | .activity _ | .restart => false
  | _ => true

namespace TxzUser

/-- The end of a period takes the record out of memory; the row keeps it. -/
def cleared (s : TxzUser) (emailAt : Option Int) (mails : List PassMail) : TxzUser :=
  { s with
    data := some ⟨none, emailAt⟩, SFlag := false, row := s.row.set ⟨none, emailAt⟩
    mails := s.mails ++ mails }

/-- A record of a new period, in memory and in the row. -/
def renewed (s : TxzUser) (startAt endAt : Int) : TxzUser :=
  { s with
    data := some ⟨some (.create startAt endAt), some 0⟩, SFlag := false
    row := ⟨some (.create startAt endAt), some 0⟩, no := s.no + 1 }

/-- The mail of a claim. -/
def claimMail (s : TxzUser) (claim : Claim) : List PassMail :=
  if claim.rNormalList = [] then []
  else [⟨s.no, claim.rNormalList.flatMap PassRow.award ++
    claim.rSeniorList.flatMap PassRow.senior_award⟩]

/-- There is no period that is over, unmarked, and leaves a reward. -/
def Quiet (cfg : PassTable) (s : TxzUser) : Prop :=
  ∀ r, s.loaded.record = some r → s.loaded.CheckOver s.now = true →
    s.loaded.emailAt.getD 0 ≤ 0 → ∃ ret, r.rewardList cfg 0 none = .error ret

/-- What the end of a period does, where it finds one. -/
inductive Settled (cfg : PassTable) (s : TxzUser) : TxzUser → Prop
  | kept : s.Quiet cfg → Settled cfg s s.load
  | expired (r : PassRecord) : s.loaded.record = some r → s.loaded.CheckOver s.now = true →
      s.loaded.emailAt.getD 0 ≤ 0 → mailDays < s.now - r.endAt →
      Settled cfg s (s.load.cleared none [])
  | ended (r : PassRecord) (claim : Claim) : s.loaded.record = some r →
      s.loaded.CheckOver s.now = true → s.loaded.emailAt.getD 0 ≤ 0 →
      r.rewardList cfg 0 none = .ok claim → s.now - r.endAt ≤ mailDays →
      Settled cfg s (s.load.cleared (some s.now) (s.claimMail claim))

inductive Checked (cfg : PassTable) (s : TxzUser) : TxzUser → Prop
  | kept (m : TxzUser) : Settled cfg s m → Checked cfg s m
  | renewed (m : TxzUser) (startAt endAt : Int) : Settled cfg s m →
      Checked cfg s (m.renewed startAt endAt)

section Steps
variable {cfg : PassTable} {t : Tables} {s s' m : TxzUser} {r : PassRecord} {e : TxzEvent}

theorem settled_load (s : TxzUser) : Settled cfg s (s.load.settle cfg).save := by
  have same : s.load.loaded = s.loaded := rfl
  have saved : s.load.save = s.load := rfl
  rw [settle, same]
  by_cases past : s.loaded.CheckOver s.now = true
  · have past' : s.loaded.CheckOver s.load.now = true := past
    rw [if_pos past', RewardToEmail, same]
    cases found : s.loaded.record with
    | none => exact .kept fun r here => absurd (found.symm.trans here) (Option.some_ne_none r).symm
    | some r =>
        simp only
        by_cases mailed : s.loaded.emailAt.getD 0 > 0
        · rw [if_pos mailed]
          exact .kept fun _ _ _ unmarked => absurd mailed (not_lt.mpr unmarked)
        rw [if_neg mailed]
        cases listed : r.rewardList cfg 0 none with
        | error ret =>
            refine .kept fun r' here _ _ => ⟨ret, ?_⟩
            rw [← Option.some.inj (found.symm.trans here)]
            exact listed
        | ok claim =>
            simp only
            by_cases late : s.load.now - r.endAt > mailDays
            · rw [if_pos late]
              have made : (s.load.write ⟨none, none⟩).save = s.load.cleared none [] := by
                simp [save, write, cleared, loaded]
              rw [made]
              exact .expired r found past (not_lt.mp mailed) late
            · rw [if_neg late]
              have made : (if claim.rNormalList = [] then s.load.write ⟨none, some s.load.now⟩ else
                  { s.load.write ⟨none, some s.load.now⟩ with
                    mails := (s.load.write ⟨none, some s.load.now⟩).mails ++
                      [⟨(s.load.write ⟨none, some s.load.now⟩).no,
                        claim.rNormalList.flatMap PassRow.award ++
                          claim.rSeniorList.flatMap PassRow.senior_award⟩] }).save =
                  s.load.cleared (some s.now) (s.claimMail claim) := by
                rw [claimMail]
                split
                · simp [save, write, cleared, loaded, load]
                · simp [save, write, cleared, loaded, load]
              rw [made]
              exact .ended r claim found past (not_lt.mp mailed) listed (not_lt.mp late)
  · have past' : ¬s.loaded.CheckOver s.load.now = true := past
    rw [if_neg past', saved]
    exact .kept fun _ _ here => absurd here past

theorem unsaved_settled (settled : Settled cfg s m) : m.SFlag = false := by
  cases settled <;> rfl

theorem checked_open (s : TxzUser) : Checked cfg s (s.CheckAndUpdateOpen cfg) := by
  have settled := @settled_load cfg s
  rw [CheckAndUpdateOpen]
  generalize (s.load.settle cfg).save = m at settled
  have saved : m.save = m := by
    rw [save, unsaved_settled settled]
    rfl
  simp only
  cases m.getCfg with
  | none => exact .kept m settled
  | some act =>
      simp only
      split
      · rw [saved]
        exact .kept m settled
      · exact .renewed m act.1 act.2 settled

theorem unsaved_checked (checked : Checked cfg s m) : m.SFlag = false := by
  cases checked with
  | kept _ settled => exact unsaved_settled settled
  | renewed => rfl

end Steps

/-- Nothing is granted twice, and the row of the user says what has been granted in the period
of its record; memory has that record or none. -/
structure TxzInv (s : TxzUser) : Prop where
  nodup : s.granted.Nodup
  known : ∀ g ∈ s.granted, g.no ≤ s.no
  cached : ∀ d, s.data = some d → d = s.row ∨ d.record = none
  record : ∀ r, s.row.record = some r → r.Grants s.no s.granted

/-- What a gain, a purchase or the gold pass may do to a record. -/
structure Advances (r r' : PassRecord) : Prop where
  lv : r.lv ≤ r'.lv
  gold : r.HasGold = true → r'.HasGold = true
  lvList : r'.lvList = r.lvList
  startAt : r'.startAt = r.startAt
  endAt : r'.endAt = r.endAt

/-- A record that has changed, in memory and in the row, with what has been granted. -/
def advanced (s : TxzUser) (r : PassRecord) (bag : Bag) (granted : List PassGrant) : TxzUser :=
  { s with
    data := some ⟨some r, s.row.emailAt⟩, SFlag := false, row := ⟨some r, s.row.emailAt⟩
    bag := bag, granted := s.granted ++ granted }

/-- What an event does once the record has been checked. -/
inductive Acted (cfg : PassTable) (m : TxzUser) : TxzUser → Prop
  | kept : Acted cfg m m
  | advanced (r r' : PassRecord) (bag : Bag) : m.openRecord = some r → Advances r r' →
      Acted cfg m (m.advanced r' bag [])
  | claimed (r : PassRecord) (lv : Int) (type : Option RewardType) (bag : Bag) :
      m.openRecord = some r → Acted cfg m (m.advanced (claimLoop cfg r lv type).record bag
        ((claimLoop cfg r lv type).grants m.no))

/-- What an event may do. -/
inductive Moved (cfg : PassTable) (s : TxzUser) : TxzUser → Prop
  | tick (d : Nat) : Moved cfg s { s with now := s.now + d }
  | activity (act : Option (Int × Int)) : Moved cfg s { s with act := act }
  | restart : Moved cfg s { s with data := none, SFlag := false }
  | kept : Moved cfg s s
  | checked (m s' : TxzUser) : Checked cfg s m → Acted cfg m s' → Moved cfg s s'

section Runs
variable {cfg : PassTable} {t : Tables} {s s' m : TxzUser} {r r' : PassRecord} {e : TxzEvent}
  {es : List TxzEvent} {bag : Bag} {now : Int}

theorem openRecord_some (found : s.openRecord = some r) :
    s.loaded.record = some r ∧ r.startAt ≤ s.now ∧ s.now ≤ r.endAt := by
  rw [openRecord] at found
  split at found
  · cases found
  · rw [Option.filter_eq_some_iff] at found
    exact ⟨found.1, by simpa using found.2⟩

theorem loaded_row (inv : s.TxzInv) (found : s.loaded.record = some r) : s.loaded = s.row := by
  rw [loaded] at found ⊢
  cases data : s.data with
  | none => rfl
  | some d =>
      rw [data] at found
      obtain same | none := inv.cached d data
      · exact same
      · exact absurd (found.symm.trans none) (Option.some_ne_none r)

theorem record_create (known : ∀ g ∈ s.granted, g.no ≤ s.no) (startAt endAt : Int) :
    (PassRecord.create startAt endAt).Grants (s.no + 1) s.granted := by
  have fresh : ∀ g ∈ s.granted, g.no ≠ s.no + 1 := fun g mem same => by
    have old := known g mem
    omega
  refine ⟨fun g mem here => absurd here (fresh g mem),
    fun g mem here => absurd here (fresh g mem), ?_⟩
  intro isSenior level
  exact iff_of_false nofun fun mem => fresh _ mem rfl

theorem inv_settled (inv : s.TxzInv) (settled : Settled cfg s m) : m.TxzInv := by
  have row : ∀ emailAt, (s.row.set ⟨none, emailAt⟩).record = s.row.record := fun _ => rfl
  have load : ∀ d, some s.loaded = some d → d = s.row ∨ d.record = none := by
    intro d same
    obtain rfl := Option.some.inj same
    cases data : s.data with
    | none =>
        rw [loaded, data]
        exact .inl rfl
    | some d =>
        rw [loaded, data]
        exact inv.cached d data
  cases settled with
  | kept => exact ⟨inv.nodup, inv.known, load, inv.record⟩
  | expired r =>
      exact ⟨inv.nodup, inv.known, fun d same => .inr (Option.some.inj same ▸ rfl), inv.record⟩
  | ended r claim =>
      exact ⟨inv.nodup, inv.known, fun d same => .inr (Option.some.inj same ▸ rfl), inv.record⟩

theorem inv_checked (inv : s.TxzInv) (checked : Checked cfg s m) : m.TxzInv := by
  cases checked with
  | kept m settled => exact inv_settled inv settled
  | renewed m startAt endAt settled =>
      have inv' := inv_settled inv settled
      refine ⟨inv'.nodup, fun g mem => (inv'.known g mem).trans (Nat.le_succ _),
        fun d same => .inl (Option.some.inj same).symm, ?_⟩
      intro r same
      obtain rfl := Option.some.inj same
      exact record_create inv'.known startAt endAt

theorem inv_advanced (inv : m.TxzInv) (found : m.openRecord = some r) (advances : Advances r r') :
    (m.advanced r' bag []).TxzInv := by
  have loaded := (openRecord_some found).1
  have row : m.row.record = some r := loaded_row inv loaded ▸ loaded
  have same : (m.advanced r' bag []).granted = m.granted := List.append_nil m.granted
  refine ⟨same ▸ inv.nodup, same ▸ inv.known, fun d same => .inl (Option.some.inj same).symm, ?_⟩
  intro r'' last
  obtain rfl := Option.some.inj last
  rw [same]
  exact (inv.record r row).mono advances.lv advances.gold advances.lvList

theorem inv_claimed (inv : m.TxzInv) (found : m.openRecord = some r) (lv : Int)
    (type : Option RewardType) :
    (m.advanced (claimLoop cfg r lv type).record bag
      ((claimLoop cfg r lv type).grants m.no)).TxzInv := by
  have loaded := (openRecord_some found).1
  have row : m.row.record = some r := loaded_row inv loaded ▸ loaded
  have claimed := @claimLoop_claimed cfg r lv type
  obtain ⟨nodup, grants⟩ := (inv.record r row).extend inv.nodup claimed claimRows_nodup
    claimRows_reached validType_gold
  refine ⟨nodup, ?_, fun d same => .inl (Option.some.inj same).symm, ?_⟩
  · intro g mem
    obtain old | new := List.mem_append.mp mem
    · exact inv.known g old
    · exact ((mem_grants claimed).mp new).1.le
  · intro r'' last
    obtain rfl := Option.some.inj last
    exact grants

theorem inv_acted (inv : m.TxzInv) (acted : Acted cfg m s') : s'.TxzInv := by
  cases acted with
  | kept => exact inv
  | advanced r r' bag found advances => exact inv_advanced inv found advances
  | claimed r lv type bag found => exact inv_claimed inv found lv type

theorem inv_moved (inv : s.TxzInv) (moved : Moved cfg s s') : s'.TxzInv := by
  cases moved with
  | tick d => exact ⟨inv.nodup, inv.known, inv.cached, inv.record⟩
  | activity act => exact ⟨inv.nodup, inv.known, inv.cached, inv.record⟩
  | restart => exact ⟨inv.nodup, inv.known, nofun, inv.record⟩
  | kept => exact inv
  | checked m s' checked acted => exact inv_acted (inv_checked inv checked) acted

/-- A record is written to memory and to the row. -/
theorem writeRecord_save (inv : m.TxzInv) (found : m.openRecord = some r) (r' : PassRecord) :
    (m.writeRecord r').save =
      { m with
        data := some ⟨some r', m.row.emailAt⟩, SFlag := false, row := ⟨some r', m.row.emailAt⟩ } := by
  have same := loaded_row inv (openRecord_some found).1
  have emailAt : m.row.emailAt.or m.row.emailAt = m.row.emailAt := by
    cases m.row.emailAt <;> rfl
  have flag : (m.write { m.row with record := some r' }).SFlag = true := rfl
  rw [writeRecord, same, save, if_pos flag]
  simp only [write, loaded, Option.getD_some, TxzData.set, Option.some_or, emailAt]

theorem advances_buyLv {items : Items} {lv : Int} :
    Advances r (r.BuyLvByDiamond cfg items now bag lv).1 := by
  have same : (r.BuyLvByDiamond cfg items now bag lv).1 =
      { r with
        exp := (r.BuyLvByDiamond cfg items now bag lv).1.exp
        lv := (r.BuyLvByDiamond cfg items now bag lv).1.lv } := by
    rw [PassRecord.BuyLvByDiamond]
    cases cfg.GetCfgByLv lv with
    | none => rfl
    | some c =>
        simp only
        cases r.GetBuyLvConsumeItems cfg lv with
        | none => rfl
        | some consumeList =>
            simp only
            generalize bag.removeList items now (some consumeList) 1 = removed
            obtain ⟨bag, paid⟩ := removed
            cases paid <;> rfl
  refine ⟨lv_buyLv, ?_, ?_, ?_, ?_⟩
  · rw [same]
    exact fun gold => gold
  all_goals rw [same]

theorem acted_step (inv : s.TxzInv) (checks : e.checks = true) (step : s.step cfg t e = some s') :
    Acted cfg (s.CheckAndUpdateOpen cfg) s' := by
  have checked := @checked_open cfg s
  have inv' := inv_checked inv checked
  have saved : (s.CheckAndUpdateOpen cfg).save = s.CheckAndUpdateOpen cfg := by
    rw [save, unsaved_checked checked]
    rfl
  generalize opened : s.CheckAndUpdateOpen cfg = m at checked inv' saved ⊢
  have write : ∀ {r r'}, m.openRecord = some r → Advances r r' →
      Acted cfg m (m.writeRecord r').save := by
    intro r r' found advances
    have made := @Acted.advanced cfg m r r' m.bag found advances
    rw [advanced, List.append_nil] at made
    rw [writeRecord_save inv' found]
    exact made
  cases e with
  | tick d => cases checks
  | activity act => cases checks
  | restart => cases checks
  | userOnline =>
      obtain rfl := Option.some.inj step
      rw [userOnline, opened]
      cases found : m.openRecord with
      | none => exact .kept
      | some r =>
          obtain ⟨loaded, _, inTime⟩ := openRecord_some found
          have running : m.loaded.CheckOver m.now = false := by
            simp [TxzData.CheckOver, loaded, inTime]
          simp only [settle, running, Bool.false_eq_true, if_false, saved]
          exact .kept
  | userStoreBuy id =>
      obtain rfl := Option.some.inj step
      have gold : id = storeTxzGold ∨ id = storeTxzChaoGold_1 ∨ id = storeTxzChaoGold_2 := by
        simpa [TxzEvent.checks] using checks
      rw [userStoreBuy, if_pos gold, opened]
      simp only
      cases found : m.openRecord with
      | none => exact .kept
      | some r =>
          refine write found ⟨?_, gold_addStory id, ?_, ?_, ?_⟩
          all_goals
            rw [PassRecord.addStory]
            split <;> rfl
  | addTxzExp num =>
      obtain rfl := Option.some.inj step
      rw [loadAndAddTxzExp, opened]
      cases found : m.openRecord with
      | none => exact .kept
      | some r => exact write found ⟨lv_addExp num, fun gold => gold, rfl, rfl, rfl⟩
  | getTxzData =>
      obtain rfl := Option.some.inj step
      rw [opened, saved]
      exact .kept
  | txzBuyLvByDiamond lv =>
      obtain rfl := Option.some.inj step
      rw [TxzBuyLvByDiamond, opened]
      simp only
      cases found : m.openRecord with
      | none => exact .kept
      | some r =>
          simp only
          have advances : Advances r (r.BuyLvByDiamond cfg t.items m.now m.bag lv).1 :=
            advances_buyLv
          generalize r.BuyLvByDiamond cfg t.items m.now m.bag lv = result at advances
          obtain ⟨r', bag, ret⟩ := result
          cases ret with
          | succeed_1 =>
              have made := @Acted.advanced cfg m r r' bag found advances
              rw [advanced, List.append_nil] at made
              have paid : ({ m.writeRecord r' with bag := bag }).save =
                  { (m.writeRecord r').save with bag := bag } := rfl
              simp only [paid, writeRecord_save inv' found]
              exact made
          | _ =>
              rw [saved]
              exact .kept
  | txzReward lv type =>
      obtain rfl := Option.some.inj step
      rw [TxzReward, opened]
      cases found : m.openRecord with
      | none => exact .kept
      | some r =>
          simp only
          split
          · exact .kept
          · cases listed : r.rewardList cfg lv type with
            | error ret => exact .kept
            | ok claim =>
                obtain ⟨rfl, _⟩ := rewardList_ok listed
                have made := @Acted.claimed cfg m r lv type
                  ((m.grant t (claimLoop cfg r lv type)).bag) found
                rw [advanced, Claim.grants, ← List.append_assoc] at made
                simp only [writeRecord_save inv' found]
                exact made

theorem moved_step (inv : s.TxzInv) (step : s.step cfg t e = some s') : Moved cfg s s' := by
  by_cases checks : e.checks = true
  · exact .checked _ s' (@checked_open cfg s) (acted_step inv checks step)
  cases e with
  | tick d =>
      obtain rfl := Option.some.inj step
      exact .tick d
  | activity act =>
      obtain rfl := Option.some.inj step
      exact .activity act
  | restart =>
      obtain rfl := Option.some.inj step
      exact .restart
  | userStoreBuy id =>
      obtain rfl := Option.some.inj step
      have other : ¬(id = storeTxzGold ∨ id = storeTxzChaoGold_1 ∨ id = storeTxzChaoGold_2) := by
        simpa [TxzEvent.checks] using checks
      rw [userStoreBuy, if_neg other]
      exact .kept
  | _ => exact absurd rfl checks

theorem inv_start : (start bag now).TxzInv := ⟨List.nodup_nil, nofun, nofun, nofun⟩

theorem run_inv (run : Run (step cfg t) anyStep (start bag now) es s) : s.TxzInv :=
  run.invariant TxzInv inv_start fun _ _ _ inv _ moved => inv_moved inv (moved_step inv moved)

/-- The record of an open period is the row's. -/
theorem grants_loaded (inv : s.TxzInv) (found : s.loaded.record = some r) :
    r.Grants s.no s.granted :=
  inv.record r (loaded_row inv found ▸ found)

end Runs

end TxzUser

end HuluLandlord.Agent
