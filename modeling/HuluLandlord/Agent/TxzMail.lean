import HuluLandlord.Agent.TxzReward

/-!
The end of a period. What the user could have claimed and has not is sent to him by mail
when his record is next looked at, unless no normal reward is left: then the senior ones are
lost with the record. A mail marks the row, so it is the only one.
-/
namespace HuluLandlord.Agent
open Transition Table

section Rows
variable {cfg : PassTable} {r : PassRecord}

theorem claimRows_all : claimRows cfg r 0 = cfg.rows.filter fun row => row.level ≤ r.lv := by
  have taken : ∀ n ≤ r.lv, ((List.range' 1 n).map Int.ofNat).filterMap (reachedRow cfg r) =
      cfg.rows.take n := by
    intro n
    induction n with
    | zero => simp
    | succ n ih =>
        intro le
        have found : reachedRow cfg r (Int.ofNat (1 + n)) = cfg.rows[n]? := by
          have here : (Int.ofNat (1 + n)) = ((n + 1 : Nat) : Int) := by
            rw [Nat.add_comm]
            rfl
          rw [here, reachedRow, if_pos (by omega), PassTable.getCfgByLv_row]
        rw [List.range'_1_concat, List.map_append, List.filterMap_append, ih (by omega),
          List.take_add_one, List.map_singleton]
        congr 1
        rw [List.filterMap_cons, found]
        cases cfg.rows[n]? with
        | none => rfl
        | some row => rfl
  have named := @PassTable.nextRows_filter cfg 0 r.lv
  rw [PassTable.nextRows_eq, List.drop_zero, Nat.zero_add] at named
  rw [claimRows, PassRecord.claimLevels, if_pos rfl, taken r.lv (le_refl _), named]
  refine List.filter_congr fun row mem => ?_
  obtain ⟨i, found⟩ := List.mem_iff_getElem?.mp mem
  have level := PassTable.level_of_row found
  have positive : 0 < row.level := by omega
  simp only [positive, true_and]

theorem claimType_all (isSenior : Bool) (type : Option RewardType) :
    (claimType r 0 type).wants isSenior = (!isSenior || r.HasGold) := by
  rw [claimType, if_pos rfl, PassRecord.ValidType]
  cases r.HasGold <;> cases isSenior <;> rfl

end Rows

namespace TxzUser

/-- What the user has a right to in the period of his record and has not taken. -/
def due (cfg : PassTable) (s : TxzUser) (r : PassRecord) (isSenior : Bool) : List PassRow :=
  cfg.rows.filter fun row => row.level ≤ r.lv ∧ (isSenior = true → r.HasGold = true) ∧
    ⟨s.no, row.level, isSenior⟩ ∉ s.granted

/-- The mail that would bring all of it. -/
def dueMail (cfg : PassTable) (s : TxzUser) (r : PassRecord) : List PassMail :=
  if s.due cfg r false = [] ∧ s.due cfg r true = [] then []
  else [⟨s.no, (s.due cfg r false).flatMap PassRow.award ++
    (s.due cfg r true).flatMap PassRow.senior_award⟩]

/-- The period of the record is over, for not too long, and has not been settled. -/
structure Over (s : TxzUser) (r : PassRecord) : Prop where
  record : s.loaded.record = some r
  unmarked : s.loaded.emailAt.getD 0 ≤ 0
  ended : r.endAt < s.now
  recent : s.now - r.endAt ≤ mailDays

/-- Nothing is left, or a normal reward is, in a period that can be over. -/
def Mailable (cfg : PassTable) (s : TxzUser) (r : PassRecord) : Prop :=
  (s.due cfg r false = [] ∧ s.due cfg r true = []) ∨
    (firstEndAt ≤ r.endAt ∧ s.due cfg r false ≠ [])

section Check
variable {cfg : PassTable} {t : Tables} {s s' m : TxzUser} {r : PassRecord} {e : TxzEvent}

/-- What a claim for everything finds is what is due. -/
theorem claimLoop_due (inv : s.TxzInv) (found : s.loaded.record = some r)
    (type : Option RewardType) :
    (claimLoop cfg r 0 type).rNormalList = s.due cfg r false ∧
      (claimLoop cfg r 0 type).rSeniorList = s.due cfg r true := by
  have grants := grants_loaded inv found
  have claimed := @claimLoop_claimed cfg r 0 type
  have wanted : ∀ isSenior, wantedRows r (claimType r 0 type) isSenior (claimRows cfg r 0) =
      s.due cfg r isSenior := by
    intro isSenior
    rw [wantedRows, claimRows_all, List.filter_filter, due]
    refine List.filter_congr fun row mem => ?_
    rw [claimType_all, Bool.eq_iff_iff]
    simp only [Bool.and_eq_true, Bool.or_eq_true, Bool.not_eq_true', decide_eq_true_eq]
    rw [← grants.taken, Bool.not_eq_true]
    cases isSenior with
    | false => simp [and_comm]
    | true => simp [and_comm]
  exact ⟨by rw [claimed.normal, wanted, List.nil_append],
    by rw [claimed.senior, wanted, List.nil_append]⟩

/-- A claim for everything fails if and only if nothing is due. -/
theorem rewardList_error :
    (∃ ret, r.rewardList cfg 0 none = .error ret) ↔
      (claimLoop cfg r 0 none).rNormalList = [] ∧ (claimLoop cfg r 0 none).rSeniorList = [] := by
  rw [rewardList_eq, if_pos rfl]
  by_cases low : (1 : Int) > r.lv
  · have none : r.claimLevels 0 = [] := by
      have zero : r.lv = 0 := by omega
      rw [PassRecord.claimLevels, if_pos rfl, zero]
      rfl
    rw [if_pos low, claimLoop, none]
    exact iff_of_true ⟨_, rfl⟩ ⟨rfl, rfl⟩
  · rw [if_neg low]
    split
    · rename_i none
      exact iff_of_true ⟨_, rfl⟩ none
    · rename_i some_
      exact iff_of_false (by rintro ⟨ret, failed⟩; cases failed) some_

/-- The mail of the check that finds the period over. -/
theorem mails_settled (inv : s.TxzInv) (ended : s.Over r) (settled : Settled cfg s m) :
    m.mails = s.mails ++
      if firstEndAt ≤ r.endAt ∧ s.due cfg r false ≠ [] then s.dueMail cfg r else [] := by
  obtain ⟨normal, senior⟩ := @claimLoop_due cfg s r inv ended.record none
  have counts : s.loaded.CheckOver s.now = true ↔ firstEndAt ≤ r.endAt := by
    simp [TxzData.CheckOver, ended.record, ended.ended]
  cases settled with
  | kept quiet =>
      have same : s.load.mails = s.mails ++ [] := (List.append_nil _).symm
      rw [same]
      refine congrArg (s.mails ++ ·) (if_neg ?_).symm
      rintro ⟨late, left⟩
      obtain ⟨none, _⟩ := rewardList_error.mp (quiet r ended.record (counts.mpr late) ended.unmarked)
      exact left (normal ▸ none)
  | expired r' found past unmarked late =>
      obtain rfl := Option.some.inj (ended.record.symm.trans found)
      exact absurd late (not_lt.mpr ended.recent)
  | ended r' claim found past unmarked listed recent =>
      obtain rfl := Option.some.inj (ended.record.symm.trans found)
      obtain ⟨rfl, _⟩ := rewardList_ok listed
      have made : (s.load.cleared (some s.now) (s.claimMail (claimLoop cfg r 0 none))).mails =
          s.mails ++ s.claimMail (claimLoop cfg r 0 none) := rfl
      rw [made, claimMail, normal, senior, dueMail]
      have late := counts.mp past
      by_cases left : s.due cfg r false = []
      · rw [if_pos left, if_neg fun both => both.2 left]
      · rw [if_neg left, if_pos ⟨late, left⟩, if_neg fun none => left none.1]

theorem mails_checked (checked : Checked cfg s m) : ∃ m', Settled cfg s m' ∧ m.mails = m'.mails := by
  cases checked with
  | kept m settled => exact ⟨m, settled, rfl⟩
  | renewed m startAt endAt settled => exact ⟨m, settled, rfl⟩

theorem mails_acted (acted : Acted cfg m s') : s'.mails = m.mails := by
  cases acted <;> rfl

theorem mails_step (inv : s.TxzInv) (ended : s.Over r) (checks : e.checks = true)
    (moved : s.step cfg t e = some s') :
    s'.mails = s.mails ++
      if firstEndAt ≤ r.endAt ∧ s.due cfg r false ≠ [] then s.dueMail cfg r else [] := by
  obtain ⟨m, settled, same⟩ := mails_checked (@checked_open cfg s)
  rw [mails_acted (acted_step inv checks moved), same, mails_settled inv ended settled]

end Check

/-- There is one mail a period at most, and it marks the row. -/
structure MailInv (s : TxzUser) : Prop where
  known : ∀ m ∈ s.mails, m.no ≤ s.no
  once : (s.mails.map PassMail.no).Nodup
  unmarked : s.row.emailAt.getD 0 ≤ 0 → ∀ m ∈ s.mails, m.no ≠ s.no

/-- Period `no` is over, nothing is due in it, and nothing has been mailed for it. -/
structure Spent (cfg : PassTable) (r : PassRecord) (no : Nat) (s : TxzUser) : Prop where
  past : no ≤ s.no
  unmailed : ∀ m ∈ s.mails, m.no ≠ no
  record : s.no = no → s.row.record = some r ∧ r.endAt < s.now

section Mails
variable {cfg : PassTable} {t : Tables} {s s' m : TxzUser} {r : PassRecord} {e : TxzEvent}
  {es : List TxzEvent} {bag : Bag} {now : Int} {no : Nat}

theorem mailInv_settled (inv : s.TxzInv) (mails : s.MailInv) (settled : Settled cfg s m) :
    m.MailInv := by
  cases settled with
  | kept quiet => exact ⟨mails.known, mails.once, mails.unmarked⟩
  | expired r found past unmarked late =>
      have same : (s.load.cleared none []).mails = s.mails := List.append_nil _
      refine ⟨same ▸ mails.known, same ▸ mails.once, fun here => same ▸ mails.unmarked ?_⟩
      exact here
  | ended r claim found past unmarked listed recent =>
      have positive : 0 < s.now := by
        simp [TxzData.CheckOver, found] at past
        rw [firstEndAt] at past
        omega
      have fresh := mails.unmarked (loaded_row inv found ▸ unmarked)
      have numbered : ∀ mail ∈ s.claimMail claim, mail.no = s.no := by
        intro mail mem
        rw [claimMail] at mem
        split at mem
        · exact absurd mem List.not_mem_nil
        · exact List.mem_singleton.mp mem ▸ rfl
      have single : ((s.claimMail claim).map PassMail.no).Nodup := by
        rw [claimMail]
        split
        · exact List.nodup_nil
        · exact List.nodup_singleton _
      refine ⟨?_, ?_, fun here => absurd here (not_le.mpr positive)⟩
      · intro mail mem
        obtain old | new := List.mem_append.mp mem
        · exact mails.known mail old
        · exact (numbered mail new).le
      · show ((s.mails ++ s.claimMail claim).map PassMail.no).Nodup
        rw [List.map_append]
        refine List.nodup_append.mpr ⟨mails.once, single, ?_⟩
        rintro _ old _ new rfl
        obtain ⟨a, memA, same⟩ := List.mem_map.mp old
        obtain ⟨b, memB, same'⟩ := List.mem_map.mp new
        exact fresh a memA (same.trans (same'.symm.trans (numbered b memB)))

theorem mailInv_moved (inv : s.TxzInv) (mails : s.MailInv) (moved : Moved cfg s s') :
    s'.MailInv := by
  cases moved with
  | tick d => exact ⟨mails.known, mails.once, mails.unmarked⟩
  | activity act => exact ⟨mails.known, mails.once, mails.unmarked⟩
  | restart => exact ⟨mails.known, mails.once, mails.unmarked⟩
  | kept => exact mails
  | checked m s' checked acted =>
      have before : m.MailInv := by
        cases checked with
        | kept m settled => exact mailInv_settled inv mails settled
        | renewed m startAt endAt settled =>
            have old := mailInv_settled inv mails settled
            refine ⟨fun mail mem => (old.known mail mem).trans (Nat.le_succ _), old.once, ?_⟩
            intro _ mail mem same
            exact absurd (old.known mail mem) (not_le.mpr (same ▸ Nat.lt_succ_self _))
      cases acted with
      | kept => exact before
      | advanced r r' bag found advances => exact ⟨before.known, before.once, before.unmarked⟩
      | claimed r lv type bag found => exact ⟨before.known, before.once, before.unmarked⟩

/-- Where nothing is due there is never a mail. -/
theorem spent_settled (nothing : ∃ ret, r.rewardList cfg 0 none = .error ret) (inv : s.TxzInv)
    (spent : Spent cfg r no s) (settled : Settled cfg s m) : Spent cfg r no m := by
  cases settled with
  | kept quiet => exact ⟨spent.past, spent.unmailed, spent.record⟩
  | expired r' found past unmarked late =>
      have same : (s.load.cleared none []).mails = s.mails := List.append_nil _
      exact ⟨spent.past, same ▸ spent.unmailed, spent.record⟩
  | ended r' claim found past unmarked listed recent =>
      refine ⟨spent.past, ?_, spent.record⟩
      intro mail mem here
      obtain old | new := List.mem_append.mp mem
      · exact spent.unmailed mail old here
      · have number : mail.no = s.no := by
          rw [claimMail] at new
          split at new
          · exact absurd new List.not_mem_nil
          · exact List.mem_singleton.mp new ▸ rfl
        have record := (spent.record (number.symm.trans here)).1
        rw [loaded_row inv found] at found
        obtain rfl := Option.some.inj (found.symm.trans record)
        obtain ⟨ret, failed⟩ := nothing
        cases failed.symm.trans listed

theorem spent_moved (nothing : ∃ ret, r.rewardList cfg 0 none = .error ret) (inv : s.TxzInv)
    (spent : Spent cfg r no s) (moved : Moved cfg s s') : Spent cfg r no s' := by
  cases moved with
  | tick d =>
      refine ⟨spent.past, spent.unmailed, fun here => ?_⟩
      obtain ⟨record, past⟩ := spent.record here
      exact ⟨record, past.trans_le (le_add_of_nonneg_right (Int.natCast_nonneg d))⟩
  | activity act => exact ⟨spent.past, spent.unmailed, spent.record⟩
  | restart => exact ⟨spent.past, spent.unmailed, spent.record⟩
  | kept => exact spent
  | checked m s' checked acted =>
      have inv' := inv_checked inv checked
      have before : Spent cfg r no m := by
        cases checked with
        | kept m settled => exact spent_settled nothing inv spent settled
        | renewed m startAt endAt settled =>
            have old := spent_settled nothing inv spent settled
            refine ⟨old.past.trans (Nat.le_succ _), old.unmailed, fun here => ?_⟩
            have less := Nat.lt_succ_of_le old.past
            exact absurd here less.ne'
      -- the record of a period that is over does not change
      have closed : ∀ r', m.openRecord = some r' → m.no ≠ no := by
        intro r' found here
        obtain ⟨loaded, _, inTime⟩ := openRecord_some found
        obtain ⟨record, past⟩ := before.record here
        rw [loaded_row inv' loaded] at loaded
        obtain rfl := Option.some.inj (loaded.symm.trans record)
        exact absurd inTime (not_le.mpr past)
      cases acted with
      | kept => exact before
      | advanced r₁ r' bag found advances =>
          exact ⟨before.past, before.unmailed, fun here => absurd here (closed r₁ found)⟩
      | claimed r₁ lv type bag found =>
          exact ⟨before.past, before.unmailed, fun here => absurd here (closed r₁ found)⟩

theorem mails_moved (moved : Moved cfg s s') : s.mails <+: s'.mails := by
  cases moved with
  | tick d => exact List.prefix_rfl
  | activity act => exact List.prefix_rfl
  | restart => exact List.prefix_rfl
  | kept => exact List.prefix_rfl
  | checked m s' checked acted =>
      obtain ⟨m', settled, same⟩ := mails_checked checked
      rw [mails_acted acted, same]
      cases settled with
      | kept quiet => exact List.prefix_rfl
      | expired r => exact List.prefix_append _ _
      | ended r claim => exact List.prefix_append _ _

theorem mailInv_start : (start bag now).MailInv := ⟨nofun, List.nodup_nil, nofun⟩

theorem run_mailInv (run : Run (step cfg t) anyStep (start bag now) es s) :
    s.TxzInv ∧ s.MailInv :=
  run.invariant (fun s => s.TxzInv ∧ s.MailInv) ⟨inv_start, mailInv_start⟩
    fun _ _ _ inv _ moved => by
      have change := moved_step inv.1 moved
      exact ⟨inv_moved inv.1 change, mailInv_moved inv.1 inv.2 change⟩

/-- The mail of a period stays the only one of its number. -/
theorem mails_kept {mail : PassMail} (inv : s.TxzInv) (mails : s.MailInv) (mem : mail ∈ s.mails)
    (later : Run (step cfg t) anyStep s es m) :
    m.mails.filter (fun other => other.no = mail.no) = [mail] := by
  obtain ⟨_, mails', mem'⟩ := later.invariant
    (fun u => u.TxzInv ∧ u.MailInv ∧ mail ∈ u.mails) ⟨inv, mails, mem⟩
    fun _ _ _ kept _ moved => by
      have change := moved_step kept.1 moved
      exact ⟨inv_moved kept.1 change, mailInv_moved kept.1 kept.2.1 change,
        (mails_moved change).subset kept.2.2⟩
  exact filter_keyed mails'.once mem'

/-- A period in which nothing is due is never mailed. -/
theorem unmailed_kept (nothing : ∃ ret, r.rewardList cfg 0 none = .error ret) (inv : s.TxzInv)
    (spent : Spent cfg r no s) (later : Run (step cfg t) anyStep s es m) :
    m.mails.filter (fun mail => mail.no = no) = [] := by
  obtain ⟨_, spent'⟩ := later.invariant (fun u => u.TxzInv ∧ Spent cfg r no u) ⟨inv, spent⟩
    fun _ _ _ kept _ moved => by
      have change := moved_step kept.1 moved
      exact ⟨inv_moved kept.1 change, spent_moved nothing kept.1 kept.2 change⟩
  refine List.filter_eq_nil_iff.mpr fun mail mem => ?_
  simpa using spent'.unmailed mail mem

/-- The check that finds a period over leaves, for good, one mail with what is due in it, if
and only if nothing is due or a normal reward is. -/
theorem pass_mailed_iff (run : Run (step cfg t) anyStep (start bag now) es s)
    (ended : s.Over r) (checks : e.checks = true) (moved : s.step cfg t e = some s') :
    (∀ es' u, Run (step cfg t) anyStep s' es' u →
      u.mails.filter (fun mail => mail.no = s.no) = s.dueMail cfg r) ↔ s.Mailable cfg r := by
  obtain ⟨inv, mails⟩ := run_mailInv run
  have change := moved_step inv moved
  have inv' := inv_moved inv change
  have row := loaded_row inv ended.record
  have before := mails.unmarked (row ▸ ended.unmarked)
  have after := mails_step inv ended checks moved
  constructor
  · intro always
    have first := always [] s' .refl
    have none : s.mails.filter (fun mail => mail.no = s.no) = [] := by
      refine List.filter_eq_nil_iff.mpr fun mail mem => ?_
      simpa using before mail mem
    rw [after, List.filter_append, none, List.nil_append] at first
    by_cases sent : firstEndAt ≤ r.endAt ∧ s.due cfg r false ≠ []
    · exact .inr sent
    · rw [if_neg sent, List.filter_nil, dueMail] at first
      split at first
      · rename_i nothing
        exact .inl nothing
      · cases first
  · rintro (nothing | sent) es' u later
    · obtain ⟨normal, senior⟩ := @claimLoop_due cfg s r inv ended.record none
      have failed := rewardList_error.mpr ⟨normal.trans nothing.1, senior.trans nothing.2⟩
      have spent : Spent cfg r s.no s :=
        ⟨le_refl _, before, fun _ => ⟨row ▸ ended.record, ended.ended⟩⟩
      rw [dueMail, if_pos nothing]
      exact unmailed_kept failed inv' (spent_moved failed inv spent change) later
    · have left : ¬(s.due cfg r false = [] ∧ s.due cfg r true = []) := fun both => sent.2 both.1
      rw [if_pos sent, dueMail, if_neg left] at after
      rw [dueMail, if_neg left]
      have mem := after ▸ List.mem_append_right s.mails (List.mem_singleton_self _)
      exact mails_kept inv' (mailInv_moved inv mails change) mem later

/-- A period with half of the normal rewards claimed, and the gold pass. -/
def mailEvents : List TxzEvent :=
  [.activity (some (0, firstEndAt)), .addTxzExp 1000, .txzReward 2 (some .normal),
    .userStoreBuy storeTxzGold, .tick 1640966400]

theorem pass_mailed_late :
    ∃ s r s', Run (step passTable runeTables) anyStep (start (bagOf 605001 0) 1) mailEvents s ∧
      s.Over r ∧ s.step passTable runeTables .getTxzData = some s' ∧
      ((∀ es' u, Run (step passTable runeTables) anyStep s' es' u →
        u.mails.filter (fun mail => mail.no = s.no) = s.dueMail passTable r) ↔
          s.Mailable passTable r) := by
  have run := @run_of_exec _ _ (step passTable runeTables) (start (bagOf 605001 0) 1) mailEvents _
    rfl
  refine ⟨_, _, _, run, ⟨rfl, ?_, ?_, ?_⟩, rfl, @pass_mailed_iff _ _ _ _ _ .getTxzData _ _ _ run
    ⟨rfl, ?_, ?_, ?_⟩ rfl rfl⟩ <;> decide +kernel

/-- The gold pass bought after the normal rewards were claimed: the senior ones are lost. -/
theorem pass_mailed_fails :
    ¬∀ cfg t bag now es s r e s', Run (step cfg t) anyStep (start bag now) es s → s.Over r →
      e.checks = true → s.step cfg t e = some s' →
      ∀ es' u, Run (step cfg t) anyStep s' es' u →
        u.mails.filter (fun mail => mail.no = s.no) = s.dueMail cfg r := by
  intro all
  have run := @run_of_exec _ _ (step passTable runeTables) (start (bagOf 605001 0) 1)
    [.activity (some (0, firstEndAt)), .txzReward 1 (some .normal), .userStoreBuy storeTxzGold,
      .tick 1640966400] _ rfl
  refine absurd (all _ _ _ _ _ _ _ .getTxzData _ run ⟨rfl, ?_, ?_, ?_⟩ rfl rfl [] _ .refl) ?_ <;>
    decide +kernel

end Mails

end TxzUser

end HuluLandlord.Agent
