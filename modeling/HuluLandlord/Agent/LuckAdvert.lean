import HuluLandlord.Agent.LuckBaoxiang

/-!
The ten-draws that advertisements bring. A view is to bring one when it completes enough full days
in a row, none of which counts for a ten-draw already brought. The list of days holds the streak of
full days that the next ten-draw can count, and today.
-/
namespace HuluLandlord.Agent
open Calendar Table Transition

/-- How many of the views are of a day. -/
def watched (zone : Int) (adverts : List Int) (day : Int) : Nat := adverts.countP (onDay zone day)

/-- With this view there are enough on each of the days that end today, and none of these days is
of a ten-draw already brought. -/
def Due (cfg : LuckCfg) (adverts grants : List Int) (now : Int) : Prop :=
  (∀ i < cfg.luck10adv_con_day_num, cfg.luck10adv_to_free_num_step ≤
    watched cfg.zone adverts (dayOf cfg.zone now - (i : Nat))) ∧
  ∀ t ∈ grants, dayOf cfg.zone t + cfg.luck10adv_con_day_num ≤ dayOf cfg.zone now

instance decDue {cfg : LuckCfg} {adverts grants : List Int} {now : Int} :
    Decidable (Due cfg adverts grants now) :=
  inferInstanceAs (Decidable (_ ∧ _))

/-- A view more, and a ten-draw more where it is due. -/
def dueView (cfg : LuckCfg) (history : List Int × List Int) (now : Int) : List Int × List Int :=
  (history.1 ++ [now],
    if Due cfg (history.1 ++ [now]) history.2 now then history.2 ++ [now] else history.2)

/-- The ten-draws that a history of views is to bring. -/
def dueDraws (cfg : LuckCfg) (adverts : List Int) : List Int :=
  (adverts.foldl (dueView cfg) ([], [])).2

/-- Each view brings a ten-draw just when it is due, and no day has two. -/
structure TenDraws (cfg : LuckCfg) (s : LuckBox) : Prop where
  granted : s.grants = dueDraws cfg s.adverts
  daily : ∀ day, s.grants.countP (onDay cfg.zone day) ≤ 1

/-- No test brings or renews anything, no view is of the day of time zero, and a view that makes a
ten-draw due is not of the second of midnight, with a day's limit above zero and days of five. -/
def LuckBox.Timely (cfg : LuckCfg) (s : LuckBox) : LuckEvent → Prop
  | .AdvertLook now type => LuckBox.luckAdv type → dayOf cfg.zone now ≠ dayOf cfg.zone 0 ∧
      (Due cfg (s.adverts ++ [now]) s.grants now → 5 ≤ cfg.luck10adv_to_free_num_step ∧
        0 < cfg.luck10adv_free_num_limit ∧ ¬midnight cfg.zone now)
  | .TakeLuckBaoxiangTest _ type => type ≠ some 0 ∧ type ≠ some 1
  | _ => True

theorem dueView_views (cfg : LuckCfg) (adverts : List Int) (history : List Int × List Int) :
    (adverts.foldl (dueView cfg) history).1 = history.1 ++ adverts := by
  induction adverts generalizing history with
  | nil => exact (List.append_nil _).symm
  | cons now adverts ih =>
      rw [List.foldl_cons, ih, dueView, List.append_assoc]
      rfl

theorem dueDraws_snoc (cfg : LuckCfg) (adverts : List Int) (now : Int) :
    dueDraws cfg (adverts ++ [now]) =
      if Due cfg (adverts ++ [now]) (dueDraws cfg adverts) now then dueDraws cfg adverts ++ [now]
      else dueDraws cfg adverts := by
  have views := dueView_views cfg adverts ([], [])
  rw [List.nil_append] at views
  rw [dueDraws, List.foldl_append, List.foldl_cons, List.foldl_nil, dueView, views]
  rfl

/-- Ten-draws that are due are of different days. -/
theorem dueDraws_apart {cfg : LuckCfg} (days : 0 < cfg.luck10adv_con_day_num) (adverts : List Int) :
    (dueDraws cfg adverts).Pairwise fun t t' => dayOf cfg.zone t < dayOf cfg.zone t' := by
  induction adverts using List.reverseRecOn with
  | nil => exact List.Pairwise.nil
  | append_singleton adverts now ih =>
      rw [dueDraws_snoc]
      split
      · rename_i due
        rw [List.pairwise_append]
        refine ⟨ih, List.pairwise_singleton _ _, ?_⟩
        intro t mem t' last
        rw [List.mem_singleton.mp last]
        have apart := due.2 t mem
        omega
      · exact ih

theorem countP_onDay {zone : Int} {ts : List Int}
    (apart : ts.Pairwise fun t t' => dayOf zone t < dayOf zone t') (day : Int) :
    ts.countP (onDay zone day) ≤ 1 := by
  induction apart with
  | nil => exact Nat.zero_le _
  | @cons t ts later _ ih =>
      rw [List.countP_cons]
      split
      · rename_i on
        have same : dayOf zone t = day := of_decide_eq_true on
        have none_ : ts.countP (onDay zone day) = 0 := by
          rw [List.countP_eq_zero]
          intro t' mem on'
          have more := later t' mem
          rw [same, of_decide_eq_true on'] at more
          exact lt_irrefl _ more
        rw [none_]
      · exact ih

namespace LuckData

/-- The streak of `m` days before a day in the list of days. -/
def past (count : Int → Nat) (day : Int) : Nat → List (Date × Nat)
  | 0 => []
  | m + 1 => (civil (day - 1), count (day - 1)) :: past count (day - 1) m

section Past
variable {count count' : Int → Nat} {day k : Int} {m n : Nat} {array : List (Date × Nat)}

theorem past_congr (same : ∀ k < day, count k = count' k) : past count day m = past count' day m := by
  induction m generalizing day with
  | zero => rfl
  | succ m ih =>
      rw [past, past, same (day - 1) (by omega), ih fun k less => same k (by omega)]

theorem past_days {entry : Date × Nat} (mem : entry ∈ past count day m) :
    ∃ i < m, entry = (civil (day - 1 - (i : Nat)), count (day - 1 - (i : Nat))) := by
  induction m generalizing day with
  | zero => cases mem
  | succ m ih =>
      obtain rfl | mem := List.mem_cons.mp mem
      · exact ⟨0, m.succ_pos, by simp⟩
      · obtain ⟨i, less, rfl⟩ := ih mem
        refine ⟨i + 1, Nat.succ_lt_succ less, ?_⟩
        rw [show day - 1 - 1 - (i : Int) = day - 1 - ((i + 1 : Nat) : Int) by push_cast; omega]

theorem length_past : (past count day m).length = m := by
  induction m generalizing day with
  | zero => rfl
  | succ m ih => rw [past, List.length_cons, ih]

theorem lookup_past {i : Nat} (less : i < m) : (past count day m).lookup (civil (day - 1 - (i : Nat))) =
    some (count (day - 1 - (i : Nat))) := by
  induction m generalizing day i with
  | zero => omega
  | succ m ih =>
      rw [past, List.lookup_cons]
      cases i with
      | zero => simp
      | succ i =>
          have other : civil (day - 1 - ((i + 1 : Nat) : Int)) ≠ civil (day - 1) :=
            civil_injective.ne (by omega)
          rw [beq_false_of_ne other]
          have next := @ih (day - 1) i (by omega)
          rwa [show day - 1 - 1 - (i : Int) = day - 1 - ((i + 1 : Nat) : Int) by push_cast; omega]
            at next

theorem lookup_past_none (later : day ≤ k) : (past count day m).lookup (civil k) = none := by
  induction m generalizing day with
  | zero => rfl
  | succ m ih =>
      have other : civil k ≠ civil (day - 1) := civil_injective.ne (by omega)
      rw [past, List.lookup_cons, beq_false_of_ne other]
      exact ih (by omega)

/-- Another day than those of the streak takes none of them out. -/
theorem filter_past (later : day ≤ k) :
    (past count day m).filter (fun entry => entry.1 ≠ civil k) = past count day m := by
  rw [List.filter_eq_self]
  intro entry mem
  obtain ⟨i, less, rfl⟩ := past_days mem
  exact decide_eq_true (civil_injective.ne (by omega))

end Past

/-- A full day that no ten-draw counts. -/
def Full (cfg : LuckCfg) (adverts grants : List Int) (day : Int) : Prop :=
  cfg.luck10adv_to_free_num_step ≤ watched cfg.zone adverts day ∧
    ∀ t ∈ grants, dayOf cfg.zone t < day

/-- The list of days as of a day: nothing of the days of a ten-draw of that day, and else the day
with the streak before it. -/
structure Listed (cfg : LuckCfg) (adverts grants : List Int) (array : List (Date × Nat))
    (day : Int) : Prop where
  viewed : ∀ t ∈ adverts, dayOf cfg.zone t ≤ day
  drawn : ∀ t ∈ grants, dayOf cfg.zone t ≤ day
  days : ((∃ t ∈ grants, dayOf cfg.zone t = day) ∧ (array = [] ∨ array = [(civil day, 0)])) ∨
    ((∀ t ∈ grants, dayOf cfg.zone t < day) ∧ ∃ m, Streak (Full cfg adverts grants) day m ∧
      array = (civil day, watched cfg.zone adverts day) :: past (watched cfg.zone adverts) day m)

section Listed
variable {cfg : LuckCfg} {adverts grants : List Int} {array : List (Date × Nat)} {data : LuckData}
  {day k now : Int} {m n : Nat}

theorem watched_later {zone : Int} (past_ : ∀ t ∈ adverts, dayOf zone t ≤ day) (later : day < k) :
    watched zone adverts k = 0 :=
  LuckBox.countP_later past_ later fun _ on => of_decide_eq_true on

theorem watched_before {zone : Int} (before : k < dayOf zone now) :
    watched zone (adverts ++ [now]) k = watched zone adverts k := by
  rw [watched, LuckBox.count_snoc, if_neg (by omega)]
  rfl

theorem watched_today {zone : Int} : watched zone (adverts ++ [now]) (dayOf zone now) =
    watched zone adverts (dayOf zone now) + 1 :=
  LuckBox.count_today

theorem Listed.lookup_later (listed : Listed cfg adverts grants array day) (later : day < k) :
    array.lookup (civil k) = none := by
  have other : (civil k == civil day) = false := beq_false_of_ne (civil_injective.ne (by omega))
  obtain ⟨_, rfl | rfl⟩ | ⟨_, m, _, rfl⟩ := listed.days
  · rfl
  · rw [List.lookup_cons, other]
    rfl
  · rw [List.lookup_cons, other]
    exact lookup_past_none later.le

theorem Listed.filter_later (listed : Listed cfg adverts grants array day) (later : day < k) :
    (array.filter fun entry => entry.1 ≠ civil k) = array := by
  have other : civil day ≠ civil k := civil_injective.ne (by omega)
  obtain ⟨_, rfl | rfl⟩ | ⟨_, m, _, rfl⟩ := listed.days
  · rfl
  · simp [other]
  · rw [List.filter_cons_of_pos (by simpa using other), filter_past later.le]

/-- The streak right after a day that is full. -/
theorem Listed.streak_next (listed : Listed cfg adverts grants array day)
    (full : Full cfg adverts grants day) :
    ∃ m, Streak (Full cfg adverts grants) (day + 1) (m + 1) ∧
      array = past (watched cfg.zone adverts) (day + 1) (m + 1) := by
  obtain ⟨⟨t, mem, same⟩, _⟩ | ⟨_, m, streak, rfl⟩ := listed.days
  · have before := full.2 t mem
    omega
  · refine ⟨m, streak_succ full streak, ?_⟩
    rw [past, Int.add_sub_cancel]

/-- What the list says of its day. -/
theorem Listed.lookup_day (listed : Listed cfg adverts grants array day)
    (positive : 0 < cfg.luck10adv_to_free_num_step) :
    cfg.luck10adv_to_free_num_step ≤ (array.lookup (civil day)).getD 0 ↔
      Full cfg adverts grants day := by
  obtain ⟨⟨t, mem, same⟩, rfl | rfl⟩ | ⟨none_, m, _, rfl⟩ := listed.days
  · simp only [Full, List.lookup_nil, Option.getD_none]
    constructor
    · intro le
      omega
    · intro full
      have before := full.2 t mem
      omega
  · simp only [Full, List.lookup_cons, beq_self_eq_true, Option.getD_some]
    constructor
    · intro le
      omega
    · intro full
      have before := full.2 t mem
      omega
  · simp only [Full, List.lookup_cons, beq_self_eq_true, Option.getD_some]
    exact ⟨fun le => ⟨le, none_⟩, fun full => full.1⟩

/-- Another view leaves the days before it as they are. -/
theorem streak_view (streak : Streak (Full cfg adverts grants) (dayOf cfg.zone now) m) :
    Streak (Full cfg (adverts ++ [now]) grants) (dayOf cfg.zone now) m ∧
      past (watched cfg.zone adverts) (dayOf cfg.zone now) m =
        past (watched cfg.zone (adverts ++ [now])) (dayOf cfg.zone now) m := by
  refine ⟨streak_congr ?_ streak, past_congr fun k before => (watched_before before).symm⟩
  intro k before
  rw [Full, Full, watched_before before]

theorem yesterday_ne : yesterday cfg now 1 ≠ date cfg.zone now :=
  civil_injective.ne (by omega)

/-- A view that is counted; of the days before it nothing stays without a full yesterday. -/
theorem countDay_counted (marked : date cfg.zone data.AdvFreeNumTime ≠ date cfg.zone now) :
    data.countDay cfg now =
      (date cfg.zone now, (data.LastAdvTime.lookup (date cfg.zone now)).getD 0 + 1) ::
        if (data.LastAdvTime.lookup (yesterday cfg now 1)).getD 0 <
            cfg.luck10adv_to_free_num_step then []
        else data.LastAdvTime.filter fun entry => entry.1 ≠ date cfg.zone now := by
  simp only [countDay]
  rw [if_pos marked, LuckBox.lookup_setDay, if_neg yesterday_ne, LuckBox.lookup_setDay, if_pos rfl,
    Option.getD_some]
  split
  · rfl
  · rfl

/-- Yesterday is of the streak, unless there is none. -/
theorem streak_yesterday (streak : Streak (Full cfg adverts grants) (dayOf cfg.zone now) m) :
    (m = 0 ∧ (past (watched cfg.zone adverts) (dayOf cfg.zone now) m).lookup
      (yesterday cfg now 1) = none) ∨
    ∃ n, cfg.luck10adv_to_free_num_step ≤ n ∧
      (past (watched cfg.zone adverts) (dayOf cfg.zone now) m).lookup (yesterday cfg now 1) = some n := by
  cases m with
  | zero => exact .inl ⟨rfl, rfl⟩
  | succ m =>
      have last := (streak.1 0 m.succ_pos).1
      have found := @lookup_past (watched cfg.zone adverts) (dayOf cfg.zone now) _ 0 m.succ_pos
      rw [Nat.cast_zero, sub_zero] at last found
      exact .inr ⟨_, last, by rw [yesterday, Nat.cast_one, found]⟩

/-- The list of a day without a ten-draw, on that day. -/
theorem Listed.lookup_same (array : data.LastAdvTime = (civil (dayOf cfg.zone now), n) ::
    past (watched cfg.zone adverts) (dayOf cfg.zone now) m) :
    data.LastAdvTime.lookup (date cfg.zone now) = some n ∧
      data.LastAdvTime.lookup (yesterday cfg now 1) =
        (past (watched cfg.zone adverts) (dayOf cfg.zone now) m).lookup (yesterday cfg now 1) := by
  rw [array, ← date, List.lookup_cons, List.lookup_cons, beq_self_eq_true,
    beq_false_of_ne yesterday_ne]
  exact ⟨rfl, rfl⟩

/-- A day that is full is no later than the day of the list. -/
theorem Listed.full_le (positive : 0 < cfg.luck10adv_to_free_num_step)
    (listed : Listed cfg adverts grants array day) (full : Full cfg adverts grants k) : k ≤ day := by
  by_contra later
  have more := full.1
  rw [watched_later listed.viewed (not_le.mp later)] at more
  omega

/-- What the list of an earlier day says of yesterday. -/
theorem Listed.lookup_yesterday (positive : 0 < cfg.luck10adv_to_free_num_step)
    (listed : Listed cfg adverts grants array day) (later : day < dayOf cfg.zone now) :
    cfg.luck10adv_to_free_num_step ≤ (array.lookup (yesterday cfg now 1)).getD 0 ↔
      Full cfg adverts grants (dayOf cfg.zone now - 1) := by
  rw [yesterday, Nat.cast_one]
  obtain last | before := (Int.le_sub_one_of_lt later).eq_or_lt
  · rw [← last]
    exact listed.lookup_day positive
  · rw [listed.lookup_later before, Option.getD_none]
    constructor
    · intro le
      omega
    · intro full
      have le := listed.full_le positive full
      omega

/-- A view on the day of the list. -/
theorem countDay_same (positive : 0 < cfg.luck10adv_to_free_num_step)
    (marked : date cfg.zone data.AdvFreeNumTime ≠ date cfg.zone now)
    (streak : Streak (Full cfg adverts grants) (dayOf cfg.zone now) m)
    (array : data.LastAdvTime = (civil (dayOf cfg.zone now),
      watched cfg.zone adverts (dayOf cfg.zone now)) ::
        past (watched cfg.zone adverts) (dayOf cfg.zone now) m) :
    data.countDay cfg now =
      (date cfg.zone now, watched cfg.zone (adverts ++ [now]) (dayOf cfg.zone now)) ::
        past (watched cfg.zone (adverts ++ [now])) (dayOf cfg.zone now) m := by
  have kept : data.LastAdvTime.filter (fun entry => entry.1 ≠ date cfg.zone now) =
      past (watched cfg.zone adverts) (dayOf cfg.zone now) m := by
    rw [array, List.filter_cons_of_neg (by simp [date])]
    exact filter_past le_rfl
  obtain ⟨today, before⟩ := Listed.lookup_same array
  rw [countDay_counted marked, watched_today, kept, today, before, Option.getD_some,
    ← (streak_view streak).2]
  congr 1
  obtain ⟨rfl, none_⟩ | ⟨n, last, found⟩ := streak_yesterday streak
  · rw [none_, Option.getD_none, if_pos positive]
    rfl
  · rw [found, Option.getD_some, if_neg (not_lt.mpr last)]

/-- The first view after the day of the list. -/
theorem countDay_later (positive : 0 < cfg.luck10adv_to_free_num_step)
    (marked : date cfg.zone data.AdvFreeNumTime ≠ date cfg.zone now)
    (listed : Listed cfg adverts grants data.LastAdvTime day) (later : day < dayOf cfg.zone now) :
    ∃ m, Streak (Full cfg adverts grants) (dayOf cfg.zone now) m ∧
      data.countDay cfg now =
        (date cfg.zone now, watched cfg.zone (adverts ++ [now]) (dayOf cfg.zone now)) ::
          past (watched cfg.zone (adverts ++ [now])) (dayOf cfg.zone now) m := by
  have kept : data.LastAdvTime.filter (fun entry => entry.1 ≠ date cfg.zone now) =
      data.LastAdvTime := listed.filter_later later
  have today : data.LastAdvTime.lookup (date cfg.zone now) = none := listed.lookup_later later
  have of := @Listed.lookup_yesterday cfg adverts grants _ day now positive listed later
  rw [countDay_counted marked, watched_today, kept, today, Option.getD_none,
    watched_later listed.viewed later]
  by_cases full : Full cfg adverts grants (dayOf cfg.zone now - 1)
  · obtain rfl : dayOf cfg.zone now - 1 = day :=
      le_antisymm (listed.full_le positive full) (Int.le_sub_one_of_lt later)
    obtain ⟨m, streak, array⟩ := listed.streak_next full
    rw [Int.sub_add_cancel] at streak array
    refine ⟨m + 1, streak, ?_⟩
    rw [if_neg (not_lt.mpr (of.mpr full)), array, (streak_view streak).2]
  · refine ⟨0, streak_zero full, ?_⟩
    rw [if_pos (not_le.mp fun le => full (of.mp le))]
    rfl

/-- The list of days after a view that is counted. -/
theorem countDay_listed (positive : 0 < cfg.luck10adv_to_free_num_step)
    (listed : Listed cfg adverts grants data.LastAdvTime day) (le : day ≤ dayOf cfg.zone now)
    (none_ : ∀ t ∈ grants, dayOf cfg.zone t < dayOf cfg.zone now)
    (marked : date cfg.zone data.AdvFreeNumTime ≠ date cfg.zone now) :
    ∃ m, Streak (Full cfg (adverts ++ [now]) grants) (dayOf cfg.zone now) m ∧
      data.countDay cfg now =
        (date cfg.zone now, watched cfg.zone (adverts ++ [now]) (dayOf cfg.zone now)) ::
          past (watched cfg.zone (adverts ++ [now])) (dayOf cfg.zone now) m := by
  obtain rfl | later := le.eq_or_lt
  · obtain ⟨⟨t, mem, same⟩, _⟩ | ⟨_, m, streak, array⟩ := listed.days
    · have before := none_ t mem
      omega
    · exact ⟨m, (streak_view streak).1, countDay_same positive marked streak array⟩
  · obtain ⟨m, streak, list⟩ := countDay_later positive marked listed later
    exact ⟨m, (streak_view streak).1, list⟩

/-- The list of days after a view on the day of a ten-draw. -/
theorem countDay_drawn (positive : 0 < cfg.luck10adv_to_free_num_step)
    (listed : Listed cfg adverts grants data.LastAdvTime day) (le : day ≤ dayOf cfg.zone now)
    (drawn : ∃ t ∈ grants, dayOf cfg.zone t = dayOf cfg.zone now)
    (marked : date cfg.zone data.AdvFreeNumTime = date cfg.zone now) :
    data.countDay cfg now = [(date cfg.zone now, 0)] := by
  obtain ⟨t, mem, same⟩ := drawn
  obtain rfl : day = dayOf cfg.zone now := le_antisymm le (same ▸ listed.drawn t mem)
  obtain ⟨_, none_ | zero⟩ | ⟨before, _⟩ := listed.days
  · simp [countDay, marked, none_, positive]
  · have other : (yesterday cfg now 1 == date cfg.zone now) = false :=
      beq_false_of_ne yesterday_ne
    rw [← date] at zero
    simp [countDay, marked, zero, positive, List.lookup_cons, other]
  · have less := before t mem
    omega

/-- What is due, by the streak before today. -/
theorem due_iff (days : 0 < cfg.luck10adv_con_day_num)
    (none_ : ∀ t ∈ grants, dayOf cfg.zone t < dayOf cfg.zone now)
    (streak : Streak (Full cfg adverts grants) (dayOf cfg.zone now) m) :
    Due cfg adverts grants now ↔
      cfg.luck10adv_to_free_num_step ≤ watched cfg.zone adverts (dayOf cfg.zone now) ∧
        cfg.luck10adv_con_day_num ≤ m + 1 := by
  constructor
  · intro due
    have today := due.1 0 days
    rw [Nat.cast_zero, sub_zero] at today
    refine ⟨today, ?_⟩
    have more : cfg.luck10adv_con_day_num - 1 ≤ m := by
      rw [le_streak streak]
      intro i less
      have day := due.1 (i + 1) (by omega)
      rw [show dayOf cfg.zone now - ((i + 1 : Nat) : Int) = dayOf cfg.zone now - 1 - i by
        push_cast; omega] at day
      refine ⟨day, fun t mem => ?_⟩
      have apart := due.2 t mem
      omega
    omega
  · rintro ⟨today, enough⟩
    refine ⟨?_, ?_⟩
    · intro i less
      cases i with
      | zero => simpa using today
      | succ i =>
          have day := (streak.1 i (by omega)).1
          rwa [show dayOf cfg.zone now - 1 - (i : Int) =
            dayOf cfg.zone now - ((i + 1 : Nat) : Int) by push_cast; omega] at day
    · intro t mem
      have before := none_ t mem
      cases number : cfg.luck10adv_con_day_num with
      | zero => omega
      | succ d =>
          cases d with
          | zero => omega
          | succ d =>
              have first := (streak.1 d (by omega)).2 t mem
              push_cast
              omega

/-- `con_flag` looks at the streak and at today, where days of five are what is counted. -/
theorem con_flag_iff {count : Int → Nat}
    (full : ∀ i < m, cfg.luck10adv_to_free_num_step ≤ count (dayOf cfg.zone now - 1 - (i : Nat)))
    (five : cfg.luck10adv_to_free_num_step ≤ n → cfg.luck10adv_con_day_num ≤ m + 1 →
      5 ≤ cfg.luck10adv_to_free_num_step) :
    con_flag cfg ((date cfg.zone now, n) :: past count (dayOf cfg.zone now) m) now = true ↔
      cfg.luck10adv_to_free_num_step ≤ n ∧ cfg.luck10adv_con_day_num ≤ m + 1 := by
  have most : getArrayLength ((date cfg.zone now, n) :: past count (dayOf cfg.zone now) m) ≤ m + 1 := by
    apply List.countP_le_length.trans
    rw [List.length_cons, length_past]
  rw [con_flag, decide_eq_true_eq, List.lookup_cons, beq_self_eq_true, Option.getD_some]
  constructor
  · rintro ⟨today, enough, _⟩
    exact ⟨today, le_trans enough most⟩
  · rintro ⟨today, enough⟩
    have all : getArrayLength ((date cfg.zone now, n) :: past count (dayOf cfg.zone now) m) =
        m + 1 := by
      have least := five today enough
      rw [getArrayLength, List.countP_eq_length.mpr]
      · rw [List.length_cons, length_past]
      · intro entry mem
        obtain rfl | mem := List.mem_cons.mp mem
        · exact decide_eq_true (least.trans today)
        · obtain ⟨i, less, rfl⟩ := past_days mem
          exact decide_eq_true (least.trans (full i less))
    refine ⟨today, all ▸ enough, ?_⟩
    rw [all]
    intro i less
    cases i with
    | zero =>
        have same : yesterday cfg now 0 = date cfg.zone now := by
          rw [yesterday, Nat.cast_zero, sub_zero, date]
        rw [same, List.lookup_cons, beq_self_eq_true]
        exact today
    | succ i =>
        have inside : i < m := by omega
        have found := @lookup_past count (dayOf cfg.zone now) m i inside
        have same : yesterday cfg now (i + 1) = civil (dayOf cfg.zone now - 1 - (i : Nat)) := by
          rw [yesterday, show dayOf cfg.zone now - ((i + 1 : Nat) : Int) =
            dayOf cfg.zone now - 1 - i by push_cast; omega]
        have other : (civil (dayOf cfg.zone now - 1 - (i : Nat)) == date cfg.zone now) = false :=
          beq_false_of_ne (civil_injective.ne (by omega))
        rw [same, List.lookup_cons, other, found]
        exact full i inside

end Listed

/-- What data in memory or in the database says of the views and the ten-draws so far. The next
refresh is not before the end of the day of any ten-draw, and the limit of that day is used up to
then only. -/
structure Advertised (cfg : LuckCfg) (adverts grants : List Int) (clock : Int) (data : LuckData) :
    Prop where
  listed : ∃ day ≤ dayOf cfg.zone clock, Listed cfg adverts grants data.LastAdvTime day
  time : data.AdvFreeNumTime = 0 ∨ data.AdvFreeNumTime ∈ grants
  mark : ∀ t ∈ grants, dayOf cfg.zone t = dayOf cfg.zone data.AdvFreeNumTime ∨
    dayOf cfg.zone t < dayOf cfg.zone clock
  next : ∀ t ∈ grants, (dayOf cfg.zone t + 1) * 86400 - cfg.zone ≤ data.NextRefreshTime
  until_ : ∃ k ≤ dayOf cfg.zone clock + 1, data.NextRefreshTime = k * 86400 - cfg.zone
  limit : data.Lucky10Data.AdvFreeNumLimit = cfg.luck10adv_free_num_limit ∨
    ∃ t ∈ grants, data.NextRefreshTime = (dayOf cfg.zone t + 1) * 86400 - cfg.zone

/-- Where there is no data, nothing has happened. -/
def Stored (cfg : LuckCfg) (adverts grants : List Int) (clock : Int) : Option LuckData → Prop
  | none => adverts = [] ∧ grants = []
  | some data => Advertised cfg adverts grants clock data

section Advertised
variable {cfg : LuckCfg} {adverts grants : List Int} {data : LuckData} {stored : Option LuckData}
  {clock now : Int}

theorem Advertised.later (of : Advertised cfg adverts grants clock data) (le : clock ≤ now) :
    Advertised cfg adverts grants now data := by
  have days := @dayOf_mono cfg.zone _ _ le
  obtain ⟨day, past_, listed⟩ := of.listed
  obtain ⟨k, within, until_⟩ := of.until_
  refine ⟨⟨day, past_.trans days, listed⟩, of.time, ?_, of.next, ⟨k, by omega, until_⟩, of.limit⟩
  intro t mem
  obtain same | before := of.mark t mem
  · exact .inl same
  · exact .inr (before.trans_le days)

theorem Stored.later (of : Stored cfg adverts grants clock stored) (le : clock ≤ now) :
    Stored cfg adverts grants now stored := by
  cases stored with
  | none => exact of
  | some data => exact Advertised.later of le

/-- The list of days of a reset. -/
theorem listed_reset {day : Int} (positive : 0 < cfg.luck10adv_to_free_num_step)
    (listed : Listed cfg adverts grants data.LastAdvTime day) (le : day ≤ dayOf cfg.zone now)
    (none_ : ∀ t ∈ grants, dayOf cfg.zone t < dayOf cfg.zone now) :
    ∃ day ≤ dayOf cfg.zone now,
      Listed cfg adverts grants (ResetDailyData cfg (some data) now).LastAdvTime day := by
  simp only [ResetDailyData, Option.elim_some]
  by_cases pruned : (data.LastAdvTime.lookup (yesterday cfg now 1)).any
      (· < cfg.luck10adv_to_free_num_step) = true
  · simp only [pruned, if_true]
    obtain ⟨n, found, few⟩ := Option.any_eq_true _ _ |>.mp pruned
    have few := of_decide_eq_true few
    obtain rfl | later := le.eq_or_lt
    · obtain ⟨⟨t, mem, same⟩, _⟩ | ⟨_, m, streak, array⟩ := listed.days
      · have before := none_ t mem
        omega
      · rw [(Listed.lookup_same array).2] at found
        obtain ⟨_, missing⟩ | ⟨n', last, same⟩ := streak_yesterday streak
        · rw [missing] at found
          cases found
        · rw [same] at found
          cases found
          omega
    · have today : data.LastAdvTime.lookup (date cfg.zone now) = none := listed.lookup_later later
      have empty : ¬Full cfg adverts grants (dayOf cfg.zone now - 1) := by
        rw [← @Listed.lookup_yesterday cfg adverts grants _ day now positive listed later, found]
        exact not_le.mpr few
      refine ⟨dayOf cfg.zone now, le_rfl, fun t mem => (listed.viewed t mem).trans le,
        fun t mem => (none_ t mem).le, .inr ⟨none_, 0, streak_zero empty, ?_⟩⟩
      rw [today, watched_later listed.viewed later]
      rfl
  · simp only [pruned]
    exact ⟨day, le, listed⟩

theorem next_spec {refresh_time : Int} (due : refresh_time < now) :
    now ≤ GetNextRefreshTime cfg refresh_time now ∧ ∃ k ≤ dayOf cfg.zone now + 1,
      GetNextRefreshTime cfg refresh_time now = k * 86400 - cfg.zone := by
  have zero := @LuckBox.dayZero_spec now cfg.zone
  rw [GetNextRefreshTime, if_pos due]
  simp only
  split
  · exact ⟨by omega, dayOf cfg.zone now + 1, le_rfl, by rw [dayZero]; omega⟩
  · exact ⟨by omega, dayOf cfg.zone now, by omega, dayZero.eq_1 _ _⟩

/-- A reset that is due. -/
theorem advertised_reset (positive : 0 < cfg.luck10adv_to_free_num_step) (epoch : 0 < now)
    (of : Stored cfg adverts grants now stored) (due : stale stored now = true) :
    Advertised cfg adverts grants now (ResetDailyData cfg stored now) := by
  cases stored with
  | none =>
      obtain ⟨rfl, rfl⟩ := of
      obtain ⟨_, until_⟩ := @next_spec cfg now 0 epoch
      have array : (ResetDailyData cfg none now).LastAdvTime = [(date cfg.zone now, 0)] := by
        simp [ResetDailyData, List.lookup_cons, beq_false_of_ne yesterday_ne]
      have empty : ¬Full cfg [] [] (dayOf cfg.zone now - 1) := by
        intro full
        exact absurd full.1 (not_le.mpr positive)
      refine ⟨⟨dayOf cfg.zone now, le_rfl, by simp, by simp,
        .inr ⟨by simp, 0, streak_zero empty, array⟩⟩, .inl rfl, by simp, by simp, until_, .inl rfl⟩
  | some data =>
      have passed : data.NextRefreshTime < now := of_decide_eq_true due
      obtain ⟨least, until_⟩ := @next_spec cfg now _ passed
      have none_ : ∀ t ∈ grants, dayOf cfg.zone t < dayOf cfg.zone now := by
        intro t mem
        have before := (Advertised.next of t mem).trans_lt passed
        rw [dayOf] at before ⊢
        rw [dayOf]
        omega
      obtain ⟨day, le, listed⟩ := of.listed
      refine ⟨listed_reset positive listed le none_, .inl rfl, fun t mem => .inr (none_ t mem),
        fun t mem => ?_, until_, .inl rfl⟩
      exact (Advertised.next of t mem).trans (passed.le.trans least)

/-- A view on the day of a ten-draw brings nothing, and is not counted. -/
theorem view_drawn (positive : 0 < cfg.luck10adv_to_free_num_step)
    (days : 0 < cfg.luck10adv_con_day_num) (of : Advertised cfg adverts grants now data)
    (drawn : ∃ t ∈ grants, dayOf cfg.zone t = dayOf cfg.zone now) :
    ¬Due cfg (adverts ++ [now]) grants now ∧ (data.addAdvNum cfg now).2 = false ∧
      Advertised cfg (adverts ++ [now]) grants now (data.addAdvNum cfg now).1 := by
  obtain ⟨day, le, listed⟩ := of.listed
  obtain ⟨t, mem, same⟩ := drawn
  have marked : date cfg.zone data.AdvFreeNumTime = date cfg.zone now := by
    obtain mark | before := of.mark t mem
    · rw [date, ← mark, same, date]
    · omega
  have list := countDay_drawn positive listed le ⟨t, mem, same⟩ marked
  have idle : ¬con_flag cfg [(date cfg.zone now, 0)] now = true := by
    intro full
    obtain ⟨today, _⟩ := of_decide_eq_true full
    rw [List.lookup_cons, beq_self_eq_true, Option.getD_some] at today
    exact absurd today (not_le.mpr positive)
  refine ⟨?_, ?_⟩
  · intro due
    have apart := due.2 t mem
    omega
  · rw [addAdvNum, list, if_neg fun both => idle both.1]
    have viewed := LuckBox.dayOf_snoc fun t mem => (listed.viewed t mem).trans le
    exact ⟨rfl, ⟨dayOf cfg.zone now, le_rfl, viewed, fun t mem => (listed.drawn t mem).trans le,
      .inl ⟨⟨t, mem, same⟩, .inr rfl⟩⟩, of.time, of.mark, of.next, of.until_, of.limit⟩

/-- Away from midnight, the limit of a day without a ten-draw is not used up. -/
theorem limit_left (of : Advertised cfg adverts grants now data) (fresh : now ≤ data.NextRefreshTime)
    (none_ : ∀ t ∈ grants, dayOf cfg.zone t < dayOf cfg.zone now)
    (some_ : 0 < cfg.luck10adv_free_num_limit) (awake : ¬midnight cfg.zone now) :
    0 < data.Lucky10Data.AdvFreeNumLimit := by
  obtain limit | ⟨t, mem, until_⟩ := of.limit
  · rw [limit]
    exact some_
  · have before := none_ t mem
    have zero := @LuckBox.dayZero_spec now cfg.zone
    rw [midnight] at awake
    rw [dayZero] at awake zero
    omega

/-- Any other view brings a ten-draw just when it is due. -/
theorem view_counted (positive : 0 < cfg.luck10adv_to_free_num_step)
    (days : 0 < cfg.luck10adv_con_day_num) (of : Advertised cfg adverts grants now data)
    (fresh : now ≤ data.NextRefreshTime)
    (none_ : ∀ t ∈ grants, dayOf cfg.zone t < dayOf cfg.zone now)
    (epoch : dayOf cfg.zone now ≠ dayOf cfg.zone 0)
    (timely : Due cfg (adverts ++ [now]) grants now → 5 ≤ cfg.luck10adv_to_free_num_step ∧
      0 < cfg.luck10adv_free_num_limit ∧ ¬midnight cfg.zone now) :
    ((data.addAdvNum cfg now).2 = true ↔ Due cfg (adverts ++ [now]) grants now) ∧
      Advertised cfg (adverts ++ [now])
        (if (data.addAdvNum cfg now).2 then grants ++ [now] else grants) now
        (data.addAdvNum cfg now).1 := by
  obtain ⟨day, le, listed⟩ := of.listed
  have marked : date cfg.zone data.AdvFreeNumTime ≠ date cfg.zone now := by
    intro same
    have equal := civil_injective same
    obtain zero | mem := of.time
    · rw [zero] at equal
      exact epoch equal.symm
    · have before := none_ _ mem
      omega
  obtain ⟨m, streak, list⟩ := countDay_listed positive listed le none_ marked
  have due := due_iff days none_ streak
  have flag := @con_flag_iff cfg now m _ _ (fun i less => (streak.1 i less).1)
    fun today enough => (timely (due.mpr ⟨today, enough⟩)).1
  rw [← due, ← list] at flag
  have viewed := LuckBox.dayOf_snoc fun t mem => (listed.viewed t mem).trans le
  by_cases brings : Due cfg (adverts ++ [now]) grants now
  · obtain ⟨_, some_, awake⟩ := timely brings
    have left := limit_left of fresh none_ some_ awake
    obtain ⟨k, within, until_⟩ := of.until_
    have midnight_ : data.NextRefreshTime = (dayOf cfg.zone now + 1) * 86400 - cfg.zone := by
      have zero := @LuckBox.dayZero_spec now cfg.zone
      rw [midnight] at awake
      rw [dayZero] at awake zero
      omega
    rw [addAdvNum, if_pos ⟨flag.mpr brings, left⟩]
    refine ⟨⟨fun _ => brings, fun _ => rfl⟩, ?_⟩
    simp only [if_true]
    have last : now ∈ grants ++ [now] := List.mem_append_right _ (List.mem_singleton.mpr rfl)
    have drawn := LuckBox.dayOf_snoc fun t mem => (none_ t mem).le
    refine ⟨⟨dayOf cfg.zone now, le_rfl, viewed, drawn, .inl ⟨⟨now, last, rfl⟩, .inl rfl⟩⟩,
      .inr last, ?_, ?_, of.until_, .inr ⟨now, last, midnight_⟩⟩
    · intro t mem
      obtain mem | mem := List.mem_append.mp mem
      · exact .inr (none_ t mem)
      · rw [List.mem_singleton.mp mem]
        exact .inl rfl
    · intro t mem
      obtain mem | mem := List.mem_append.mp mem
      · exact of.next t mem
      · rw [List.mem_singleton.mp mem]
        exact midnight_.ge
  · rw [addAdvNum, if_neg fun both => brings (flag.mp both.1)]
    refine ⟨⟨fun no => (Bool.false_ne_true no).elim, fun due => absurd due brings⟩, ?_⟩
    simp only [Bool.false_eq_true, if_false]
    exact ⟨⟨dayOf cfg.zone now, le_rfl, viewed, fun t mem => (none_ t mem).le,
      .inr ⟨none_, m, streak, list⟩⟩, of.time, of.mark, of.next, of.until_, of.limit⟩

/-- A view brings a ten-draw just when it is due. -/
theorem advertised_view (positive : 0 < cfg.luck10adv_to_free_num_step)
    (days : 0 < cfg.luck10adv_con_day_num) (of : Advertised cfg adverts grants now data)
    (fresh : now ≤ data.NextRefreshTime) (epoch : dayOf cfg.zone now ≠ dayOf cfg.zone 0)
    (timely : Due cfg (adverts ++ [now]) grants now → 5 ≤ cfg.luck10adv_to_free_num_step ∧
      0 < cfg.luck10adv_free_num_limit ∧ ¬midnight cfg.zone now) :
    ((data.addAdvNum cfg now).2 = true ↔ Due cfg (adverts ++ [now]) grants now) ∧
      Advertised cfg (adverts ++ [now])
        (if (data.addAdvNum cfg now).2 then grants ++ [now] else grants) now
        (data.addAdvNum cfg now).1 := by
  by_cases drawn : ∃ t ∈ grants, dayOf cfg.zone t = dayOf cfg.zone now
  · obtain ⟨not_, idle, after⟩ := view_drawn positive days of drawn
    rw [idle]
    exact ⟨⟨fun no => (Bool.false_ne_true no).elim, fun due => absurd due not_⟩, after⟩
  · have none_ : ∀ t ∈ grants, dayOf cfg.zone t < dayOf cfg.zone now := by
      intro t mem
      obtain ⟨day, le, listed⟩ := of.listed
      exact lt_of_le_of_ne ((listed.drawn t mem).trans le) fun same => drawn ⟨t, mem, same⟩
    exact view_counted positive days of fresh none_ epoch timely

/-- What a draw changes is not asked for here. -/
theorem Advertised.frame {data' : LuckData} (of : Advertised cfg adverts grants now data)
    (array : data'.LastAdvTime = data.LastAdvTime)
    (time : data'.AdvFreeNumTime = data.AdvFreeNumTime)
    (next : data'.NextRefreshTime = data.NextRefreshTime)
    (limit : data'.Lucky10Data.AdvFreeNumLimit = data.Lucky10Data.AdvFreeNumLimit) :
    Advertised cfg adverts grants now data' := by
  refine ⟨?_, ?_, ?_, ?_, ?_, ?_⟩
  · rw [array]
    exact of.listed
  · rw [time]
    exact of.time
  · rw [time]
    exact of.mark
  · rw [next]
    exact of.next
  · rw [next]
    exact of.until_
  · rw [limit, next]
    exact of.limit

theorem lucky_limit {lucky lucky' : LuckyData} {diamond diamond' price : Nat}
    {consumeType : LockBXCosumeType}
    (taken : lucky.cosume diamond price = some (lucky', consumeType, diamond')) :
    lucky'.AdvFreeNumLimit = lucky.AdvFreeNumLimit := by
  rw [LuckyData.cosume] at taken
  split at taken
  · cases taken
    rfl
  · split at taken
    · cases taken
      rfl
    · split at taken
      · cases taken
        rfl
      · cases taken

theorem advertised_draw {data' : LuckData} {type : LockBXType} {consumeType : LockBXCosumeType}
    {diamond diamond' : Nat} {lucktype : Option Int} (of : Advertised cfg adverts grants now data)
    (taken : data.cosume cfg diamond lucktype = .ok (data', type, consumeType, diamond')) :
    Advertised cfg adverts grants now data' := by
  obtain ⟨lucky, branch, rfl⟩ := LuckBox.cosume_ok taken
  cases type with
  | type1 => exact of.frame rfl rfl rfl rfl
  | type10 => exact of.frame rfl rfl rfl (lucky_limit branch)

end Advertised
end LuckData

namespace LuckBox
open LuckData

structure AdvertInv (cfg : LuckCfg) (s : LuckBox) : Prop where
  epoch : 0 < s.clock
  data : s.Data.isSome = true → Stored cfg s.adverts s.grants s.clock s.Data
  stored : Stored cfg s.adverts s.grants s.clock s.stored
  granted : s.grants = dueDraws cfg s.adverts

section Requests
variable {cfg : LuckCfg} {s s' : LuckBox} {data : Option LuckData} {now : Int} {e : LuckEvent}

theorem refresh_advertised (positive : 0 < cfg.luck10adv_to_free_num_step) (epoch : 0 < now)
    (of : Stored cfg s.adverts s.grants now s.Data) :
    ∃ data flag, s.refresh cfg now = { s with Data := some data, SFlag := flag } ∧
      Advertised cfg s.adverts s.grants now data ∧ now ≤ data.NextRefreshTime := by
  have next {data : LuckData} := @refresh_next cfg s now data
  rw [refresh] at next ⊢
  split
  · rename_i due
    rw [if_pos due] at next
    exact ⟨_, true, rfl, advertised_reset positive epoch of due, next rfl⟩
  · rename_i fresh
    rw [if_neg fresh] at next
    cases here : s.Data with
    | none => exact absurd (by rw [here]; rfl) fresh
    | some data =>
        rw [here] at of
        exact ⟨data, s.SFlag, by rw [← here], of, next here⟩

/-- The data changes, and no advertisement is watched. -/
theorem AdvertInv.frame (inv : AdvertInv cfg s) (le : s.clock ≤ s'.clock)
    (current : s'.Data.isSome = true → Stored cfg s.adverts s.grants s'.clock s'.Data)
    (kept : Stored cfg s.adverts s.grants s'.clock s'.stored) (adverts : s'.adverts = s.adverts)
    (grants : s'.grants = s.grants) : AdvertInv cfg s' := by
  refine ⟨inv.epoch.trans_le le, ?_, ?_, ?_⟩
  · rw [adverts, grants]
    exact current
  · rw [adverts, grants]
    exact kept
  · rw [adverts, grants]
    exact inv.granted

theorem advertInv_saved (positive : 0 < cfg.luck10adv_to_free_num_step) (inv : AdvertInv cfg s)
    (some_ : s.Data.isSome = true) (le : s.clock ≤ now) :
    AdvertInv cfg { (s.refresh cfg now).save with clock := now } := by
  obtain ⟨data, flag, done, of, _⟩ :=
    refresh_advertised positive (inv.epoch.trans_le le) ((inv.data some_).later le)
  have kept : Stored cfg s.adverts s.grants now (if flag = true then some data else s.stored) := by
    cases flag with
    | true => exact of
    | false => exact inv.stored.later le
  rw [done, save_eq]
  exact inv.frame le (fun _ => of) kept rfl rfl

theorem advertInv_AdvertLook {type : Int} (positive : 0 < cfg.luck10adv_to_free_num_step)
    (days : 0 < cfg.luck10adv_con_day_num) (inv : AdvertInv cfg s) (some_ : s.Data.isSome = true)
    (le : s.clock ≤ now) (timely : s.Timely cfg (.AdvertLook now type)) :
    AdvertInv cfg { s.AdvertLook cfg now type with clock := now } := by
  rw [AdvertLook]
  split
  · rename_i luck
    obtain ⟨epoch, due⟩ := timely luck
    obtain ⟨data, flag, done, of, fresh⟩ :=
      refresh_advertised positive (inv.epoch.trans_le le) ((inv.data some_).later le)
    obtain ⟨brings, after⟩ := advertised_view positive days of fresh epoch due
    rw [done, save_eq]
    simp only [addAdvNum, if_true]
    refine ⟨inv.epoch.trans_le le, fun _ => after, after, ?_⟩
    simp only [brings]
    rw [dueDraws_snoc, ← inv.granted]
  · exact inv.frame le (fun some_ => (inv.data some_).later le) (inv.stored.later le) rfl rfl

theorem advertInv_init (positive : 0 < cfg.luck10adv_to_free_num_step) (inv : AdvertInv cfg s)
    (le : s.clock ≤ now) : AdvertInv cfg { s.init cfg now with clock := now } := by
  have epoch := inv.epoch.trans_le le
  have kept := inv.stored.later le
  rw [init]
  simp only
  split
  · rename_i row
    rw [row] at kept
    obtain ⟨data, flag, done, of, _⟩ := @refresh_advertised cfg
      { s with Data := none, SFlag := false } now positive epoch kept
    have saved : Stored cfg s.adverts s.grants now (if flag = true then some data else s.stored) := by
      cases flag with
      | true => exact of
      | false => exact inv.stored.later le
    rw [done, save_eq]
    simp only
    obtain ⟨data', flag', done', of', _⟩ := @refresh_advertised cfg
      { s with
        Data := some data, SFlag := false
        stored := if flag = true then some data else s.stored } now positive epoch of
    rw [done']
    exact inv.frame le (fun _ => of') saved rfl rfl
  · rename_i data row
    have whole := kept
    rw [row] at kept
    obtain ⟨data', flag, done, of, _⟩ := @refresh_advertised cfg
      { s with Data := some data, SFlag := false } now positive epoch kept
    rw [done]
    exact inv.frame le (fun _ => of) whole rfl rfl

theorem advertInv_TakeLuckBaoxiang {lucktype : Option Int} {won : Nat}
    (positive : 0 < cfg.luck10adv_to_free_num_step) (inv : AdvertInv cfg s)
    (some_ : s.Data.isSome = true) (le : s.clock ≤ now) :
    AdvertInv cfg { s.TakeLuckBaoxiang cfg now lucktype won with clock := now } := by
  have saved := advertInv_saved positive inv some_ le
  obtain ⟨data, flag, done, of, _⟩ :=
    refresh_advertised positive (inv.epoch.trans_le le) ((inv.data some_).later le)
  rw [TakeLuckBaoxiang]
  split
  · exact inv.frame le (fun some_ => (inv.data some_).later le) (inv.stored.later le) rfl rfl
  · rw [done, save_eq] at saved ⊢
    simp only
    split
    · exact saved
    · rename_i data' type consumeType diamond taken
      have drawn := advertised_draw of taken
      rw [save_eq]
      exact inv.frame le (fun _ => drawn) drawn rfl rfl

theorem advertInv_TakeLuckBaoxiangTest {type : Option Int}
    (positive : 0 < cfg.luck10adv_to_free_num_step) (inv : AdvertInv cfg s)
    (some_ : s.Data.isSome = true) (le : s.clock ≤ now)
    (timely : s.Timely cfg (.TakeLuckBaoxiangTest now type)) :
    AdvertInv cfg { s.TakeLuckBaoxiangTest cfg now type with clock := now } := by
  rw [TakeLuckBaoxiangTest.eq_def]
  split
  · exact absurd rfl timely.1
  · exact absurd rfl timely.2
  · simp only [next_kept]
    exact advertInv_saved positive inv some_ le
  · exact inv.frame le (fun some_ => (inv.data some_).later le) (inv.stored.later le) rfl rfl

theorem advertInv_step (positive : 0 < cfg.luck10adv_to_free_num_step)
    (days : 0 < cfg.luck10adv_con_day_num) (inv : AdvertInv cfg s) (timely : s.Timely cfg e)
    (moved : s.step cfg e = some s') : AdvertInv cfg s' := by
  rw [step] at moved
  split at moved
  · rename_i enabled
    obtain ⟨le, ready⟩ := enabled
    obtain rfl := Option.some.inj moved
    have idle {now : Int} {diamond : Nat} (le : s.clock ≤ now) :
        AdvertInv cfg { s with diamond := diamond, clock := now } :=
      inv.frame le (fun some_ => (inv.data some_).later le) (inv.stored.later le) rfl rfl
    cases e with
    | login now => exact advertInv_init positive inv le
    | AdvertLook now type =>
        exact advertInv_AdvertLook positive days inv (ready.resolve_left (by simp [LuckEvent.isLogin]))
          le timely
    | GetTakeLuckBaoxiang now =>
        have some_ := ready.resolve_left (by simp [LuckEvent.isLogin])
        simp only [request]
        split
        · exact idle le
        · exact advertInv_saved positive inv some_ le
    | TakeLuckBaoxiang now lucktype won =>
        exact advertInv_TakeLuckBaoxiang positive inv
          (ready.resolve_left (by simp [LuckEvent.isLogin])) le
    | TakeLuckBaoxiangTest now type =>
        exact advertInv_TakeLuckBaoxiangTest positive inv
          (ready.resolve_left (by simp [LuckEvent.isLogin])) le timely
    | gain num => exact idle le
  · cases moved

theorem advertInv_start {diamond : Nat} : AdvertInv cfg (start diamond) where
  epoch := Int.zero_lt_one
  data some_ := by cases some_
  stored := ⟨rfl, rfl⟩
  granted := rfl

/-- Along a timely run every view brings a ten-draw just when it is due. -/
theorem run_tenDraws {es : List LuckEvent} {diamond : Nat}
    (positive : 0 < cfg.luck10adv_to_free_num_step) (days : 0 < cfg.luck10adv_con_day_num)
    (run : Run (step cfg) (Timely cfg) (start diamond) es s) : TenDraws cfg s := by
  have inv : AdvertInv cfg s := run.invariant (AdvertInv cfg) advertInv_start
    fun _ _ _ inv timely moved => advertInv_step positive days inv timely moved
  refine ⟨inv.granted, fun day => ?_⟩
  rw [inv.granted]
  exact countP_onDay (dueDraws_apart days s.adverts) day

end Requests

instance decTimely {cfg : LuckCfg} : ∀ s e, Decidable (Timely cfg s e)
  | _, .login _ => inferInstanceAs (Decidable True)
  | _, .AdvertLook _ _ => inferInstanceAs (Decidable (_ → _ ∧ (_ → _)))
  | _, .GetTakeLuckBaoxiang _ => inferInstanceAs (Decidable True)
  | _, .TakeLuckBaoxiang .. => inferInstanceAs (Decidable True)
  | _, .TakeLuckBaoxiangTest _ _ => inferInstanceAs (Decidable (_ ∧ _))
  | _, .gain _ => inferInstanceAs (Decidable True)

/-- The values as shipped, for two days of five advertisements. -/
def twoDays : LuckCfg := { luckSample with luck10adv_con_day_num := 2 }

/-- Five advertisements on each of two days, and one more. -/
def twoDayEvents : List LuckEvent :=
  .login 100000 :: List.replicate 5 (.AdvertLook 100001 8) ++
    List.replicate 6 (.AdvertLook 190000 8)

theorem run_tenDraws_two : ∃ s, Run (step twoDays) (Timely twoDays) (start 0) twoDayEvents s ∧
    TenDraws twoDays s ∧ s.grants = [190000] := by
  have run := @run_of_guarded _ _ (step twoDays) (Timely twoDays) _ (start 0) twoDayEvents _ rfl
  exact ⟨_, run, run_tenDraws (by decide) (by decide) run, by decide +kernel⟩

/-- A ten-draw for one view on one day is never brought; and five views at midnight and five more
bring two on one day. -/
theorem tenDraws_fails :
    (∃ s, Run (step { luckSample with luck10adv_to_free_num_step := 1, luck10adv_con_day_num := 1 })
        anyStep (start 0) [.login 100000, .AdvertLook 100001 8] s ∧
      ¬TenDraws { luckSample with luck10adv_to_free_num_step := 1, luck10adv_con_day_num := 1 } s) ∧
    ∃ s, Run (step { luckSample with luck10adv_con_day_num := 1 }) anyStep (start 0)
        (.login 143000 :: List.replicate 5 (.AdvertLook 144000 8) ++
          List.replicate 5 (.AdvertLook 144001 8)) s ∧
      ¬TenDraws { luckSample with luck10adv_con_day_num := 1 } s := by
  refine ⟨⟨_, run_of_exec _ _ _ rfl, ?_⟩, ⟨_, run_of_exec _ _ _ rfl, ?_⟩⟩
  · intro draws
    exact absurd draws.granted (by decide +kernel)
  · intro draws
    exact absurd (draws.daily 2) (by decide +kernel)

end LuckBox
end HuluLandlord.Agent
