import HuluLandlord.Define
import HuluLandlord.Table
import HuluLandlord.Transition
import Mathlib.Data.List.DropRight

/-!
The ranking of a season, as the season service keeps it: a report is inserted before the
entries it beats, which a loop from the end of the list finds. `reports` is what was last
reported of each user and `reply` the last answer. The list is read only here.
-/
namespace HuluLandlord.Services
open Transition Table

/-- An entry of `rankArr`. -/
structure RankData where
  id : UserId
  exp : Int
  deriving DecidableEq, Repr

/-- `stored` is the row of the season, and `notified` are those `SeasonLvUpdate` was sent to. -/
structure SeasonRank where
  rankArr : List RankData
  stored : List RankData
  notified : List UserId
  reports : UserId → Option Int
  reply : Option (UserId × Bool)

def lenMax : Nat := 100

namespace SeasonRank

/-- The loop of `UpdateUserExp` over the first `i` entries. -/
def scan (rankArr : List RankData) (exp : Int) : Nat → Option Nat → Option Nat
  | 0, idx => idx
  | i + 1, idx => match rankArr[i]? with
      | none => scan rankArr exp i idx
      | some data => if exp > data.exp then scan rankArr exp i (some i) else idx

def UpdateUserExp (s : SeasonRank) (id : UserId) (exp : Int) : SeasonRank × Bool :=
  let len := s.rankArr.length
  let idx := scan s.rankArr exp len none
  if idx.isSome ∨ len ≤ 0 then
    let rankArr := s.rankArr.insertIdx (idx.getD 0) ⟨id, exp⟩
    let removed := if len ≥ lenMax then rankArr[100]? else none
    let rankArr := if len ≥ lenMax then rankArr.eraseIdx 100 else rankArr
    ({ s with
      rankArr := rankArr, stored := rankArr
      notified := s.notified ++ (removed.map RankData.id).toList }, true)
  else (s, false)

/-- `GetRankUser` in the season that is on. -/
def GetRankUser (s : SeasonRank) (id : UserId) : Option RankData :=
  s.rankArr.find? fun value => value.id = id

/-- A report is an entry, and is noted with its answer. -/
def step (s : SeasonRank) (r : RankData) : Option SeasonRank :=
  let ret := s.UpdateUserExp r.id r.exp
  some { ret.1 with
    reports := Function.update s.reports r.id (some r.exp), reply := some (r.id, ret.2) }

/-- A new season. -/
def start : SeasonRank := ⟨[], [], [], fun _ => none, none⟩

end SeasonRank

/-- The list holds the highest of the last reports, and the answer says who is in it. -/
structure Ranked (s : SeasonRank) : Prop where
  sorted : s.rankArr.Pairwise fun a b => b.exp ≤ a.exp
  short : s.rankArr.length ≤ lenMax
  once : (s.rankArr.map RankData.id).Nodup
  last : ∀ data ∈ s.rankArr, s.reports data.id = some data.exp
  top : ∀ id exp, s.reports id = some exp → id ∉ s.rankArr.map RankData.id →
    s.rankArr.length = lenMax ∧ ∀ data ∈ s.rankArr, exp ≤ data.exp
  told : ∀ id ret, s.reply = some (id, ret) → (ret = true ↔ id ∈ s.rankArr.map RankData.id)

namespace SeasonRank

/-- The last entry is beaten, or there is none. -/
def Beats (rankArr : List RankData) (exp : Int) : Prop := ∀ data ∈ rankArr.getLast?, exp > data.exp

/-- What a report leaves of a list it gets into. -/
def remaining (rankArr : List RankData) : List RankData :=
  if rankArr.length = lenMax then rankArr.dropLast else rankArr

/-- Who gets into the list is not in it, save as the last of a full one; and who does not is not
in it either, and it is full. -/
def Fits (s : SeasonRank) (r : RankData) : Prop :=
  (Beats s.rankArr r.exp ∧ r.id ∉ (remaining s.rankArr).map RankData.id) ∨
    (¬Beats s.rankArr r.exp ∧ s.rankArr.length = lenMax ∧ r.id ∉ s.rankArr.map RankData.id)

section Scan
variable {rankArr front back : List RankData} {exp : Int} {s t : SeasonRank} {r : RankData}

theorem scan_concat {data : RankData} {n : Nat} {idx : Option Nat} (le : n ≤ rankArr.length) :
    scan (rankArr ++ [data]) exp n idx = scan rankArr exp n idx := by
  induction n generalizing idx with
  | zero => rfl
  | succ n ih =>
      rw [scan, scan, List.getElem?_append_left le]
      cases rankArr[n]? with
      | none => exact ih (Nat.le_of_succ_le le)
      | some other =>
          simp only
          rw [ih (Nat.le_of_succ_le le)]

/-- The loop finds where the entries that are beaten begin. -/
theorem scan_eq {idx : Option Nat} : scan rankArr exp rankArr.length idx =
    if rankArr.rtakeWhile (fun data => exp > data.exp) = [] then idx
    else some (rankArr.rdropWhile fun data => exp > data.exp).length := by
  induction rankArr using List.reverseRecOn generalizing idx with
  | nil => rfl
  | append_singleton rankArr data ih =>
      rw [List.length_append, List.length_singleton, scan, List.getElem?_concat_length]
      simp only
      by_cases beaten : exp > data.exp
      · rw [if_pos beaten, scan_concat (le_refl _), ih, List.rtakeWhile_concat,
          List.rdropWhile_concat, if_pos (decide_eq_true beaten), if_pos (decide_eq_true beaten),
          if_neg (List.append_ne_nil_of_right_ne_nil _ (List.cons_ne_nil _ []))]
        split
        · rename_i none_
          have whole := rankArr.rdropWhile_append_rtakeWhile (p := fun data => exp > data.exp)
          rw [none_, List.append_nil] at whole
          rw [whole]
        · rfl
      · rw [if_neg beaten, List.rtakeWhile_concat, if_neg (mt of_decide_eq_true beaten), if_pos rfl]

theorem beats_iff : Beats rankArr exp ↔
    rankArr.rtakeWhile (fun data => exp > data.exp) ≠ [] ∨ rankArr = [] := by
  cases rankArr using List.reverseRecOn with
  | nil => exact iff_of_true (fun data mem => nomatch mem) (.inr rfl)
  | append_singleton rankArr data =>
      rw [Beats, List.getLast?_concat, List.rtakeWhile_concat]
      by_cases beaten : exp > data.exp
      · rw [if_pos (decide_eq_true beaten)]
        refine iff_of_true (fun other mem => Option.some.inj mem ▸ beaten) (.inl ?_)
        exact List.append_ne_nil_of_right_ne_nil _ (List.cons_ne_nil _ [])
      · rw [if_neg (mt of_decide_eq_true beaten)]
        refine iff_of_false (fun all => beaten (all data rfl)) ?_
        rintro (same | none_)
        · exact same rfl
        · exact List.append_ne_nil_of_right_ne_nil _ (List.cons_ne_nil _ []) none_

theorem kept_le (sorted : rankArr.Pairwise fun a b => b.exp ≤ a.exp) :
    ∀ data ∈ rankArr.rdropWhile fun data => exp > data.exp, exp ≤ data.exp := by
  induction rankArr using List.reverseRecOn with
  | nil => exact fun data mem => (nomatch mem)
  | append_singleton rankArr data ih =>
      obtain ⟨front, _, above⟩ := List.pairwise_append.mp sorted
      rw [List.rdropWhile_concat]
      split
      · exact ih front
      · rename_i kept
        have le : exp ≤ data.exp := by simpa using kept
        intro other mem
        obtain mem | mem := List.mem_append.mp mem
        · exact le.trans (above other mem data (List.mem_singleton_self _))
        · rwa [List.mem_singleton.mp mem]

/-- A report goes between the entries it does not beat and those it does, unless it beats none. -/
theorem UpdateUserExp_cases (sorted : s.rankArr.Pairwise fun a b => b.exp ≤ a.exp) :
    (Beats s.rankArr r.exp ∧ ∃ front back, s.rankArr = front ++ back ∧
        (∀ data ∈ front, r.exp ≤ data.exp) ∧ (∀ data ∈ back, data.exp < r.exp) ∧
        (s.rankArr ≠ [] → back ≠ []) ∧ (s.UpdateUserExp r.id r.exp).2 = true ∧
        (s.UpdateUserExp r.id r.exp).1.rankArr =
          if s.rankArr.length ≥ lenMax then (front ++ r :: back).eraseIdx 100
          else front ++ r :: back) ∨
      (¬Beats s.rankArr r.exp ∧ s.UpdateUserExp r.id r.exp = (s, false)) := by
  have split_ := s.rankArr.rdropWhile_append_rtakeWhile (p := fun data => r.exp > data.exp)
  rw [UpdateUserExp, scan_eq]
  by_cases beaten : s.rankArr.rtakeWhile (fun data => r.exp > data.exp) = []
  · by_cases empty : s.rankArr = []
    · refine .inl ⟨beats_iff.mpr (.inr empty), [], [], empty, fun data mem => (nomatch mem),
        fun data mem => (nomatch mem), fun some_ => absurd empty some_, ?_⟩
      simp only [empty]
      exact ⟨rfl, rfl⟩
    · refine .inr ⟨fun beats => ?_, ?_⟩
      · exact (beats_iff.mp beats).elim (fun some_ => some_ beaten) empty
      · rw [if_pos beaten, if_neg]
        rintro (some_ | short)
        · cases some_
        · exact empty (List.length_eq_zero_iff.mp (Nat.le_zero.mp short))
  · refine .inl ⟨beats_iff.mpr (.inl beaten), s.rankArr.rdropWhile fun data => r.exp > data.exp,
      s.rankArr.rtakeWhile fun data => r.exp > data.exp, split_.symm, ?_, ?_, fun _ => beaten, ?_⟩
    · exact kept_le sorted
    · intro data mem
      have beats : decide (r.exp > data.exp) = true :=
        List.mem_rtakeWhile_imp (p := fun data : RankData => decide (r.exp > data.exp)) mem
      exact of_decide_eq_true beats
    · rw [if_neg beaten, if_pos (.inl rfl)]
      refine ⟨rfl, ?_⟩
      simp only [Option.getD_some]
      rw [← insertIdx_append, split_]

/-- In a list that is in order, a report that gets in pushes out the last of a full one. -/
theorem step_beats (ranked : Ranked s) (beats : Beats s.rankArr r.exp)
    (moved : s.step r = some t) : ∃ front rest, remaining s.rankArr = front ++ rest ∧
      (∀ data ∈ front, r.exp ≤ data.exp) ∧ (∀ data ∈ rest, data.exp < r.exp) ∧
      t.rankArr = front ++ r :: rest ∧ t.reply = some (r.id, true) := by
  obtain rfl := Option.some.inj moved
  obtain ⟨_, front, back, whole, above, below, some_, ret, inserted⟩ | ⟨none_, _⟩ :=
    @UpdateUserExp_cases s r ranked.sorted
  · rw [ret, inserted]
    have length := congrArg List.length whole
    rw [List.length_append] at length
    by_cases full : s.rankArr.length = lenMax
    · have nonempty : back ≠ [] := by
        refine some_ fun empty => ?_
        rw [empty] at full
        cases full
      refine ⟨front, back.dropLast, ?_, above, fun data mem => below data (List.dropLast_subset _ mem),
        ?_, rfl⟩
      · rw [remaining, if_pos full, whole, List.dropLast_append_of_ne_nil nonempty]
      · rw [if_pos full.ge, List.eraseIdx_eq_dropLast, List.dropLast_append_cons,
          List.dropLast_cons_of_ne_nil nonempty]
        rw [List.length_append, List.length_cons, ← Nat.add_assoc, ← length, full, lenMax]
    · refine ⟨front, back, ?_, above, below, ?_, rfl⟩
      · rw [remaining, if_neg full, whole]
      · rw [if_neg fun le => full (le_antisymm ranked.short le)]
  · exact absurd beats none_

theorem remaining_sublist : (remaining rankArr).Sublist rankArr := by
  rw [remaining]
  split
  · exact List.dropLast_sublist _
  · exact List.Sublist.refl _

/-- Who is not among the remaining ones is not in the list, or is the last of a full one. -/
theorem not_remaining {id : UserId} (out : id ∉ (remaining rankArr).map RankData.id) :
    id ∉ rankArr.map RankData.id ∨
      rankArr.length = lenMax ∧ ∃ data ∈ rankArr.getLast?, data.id = id := by
  rw [remaining] at out
  split at out
  · rename_i full
    cases rankArr using List.reverseRecOn with
    | nil => cases full
    | append_singleton rankArr data =>
        rw [List.dropLast_concat] at out
        by_cases same : data.id = id
        · exact .inr ⟨full, data, List.getLast?_concat, same⟩
        · refine .inl fun mem => ?_
          rw [List.map_append, List.mem_append] at mem
          obtain mem | mem := mem
          · exact out mem
          · exact same (List.mem_singleton.mp mem).symm
  · exact .inl out

/-- What is above the last of the list is above what remains. -/
theorem remaining_ge {data : RankData} (sorted : s.rankArr.Pairwise fun a b => b.exp ≤ a.exp)
    (last : data ∈ s.rankArr.getLast?) : ∀ other ∈ s.rankArr, data.exp ≤ other.exp := by
  obtain ⟨front, whole⟩ := List.getLast?_eq_some_iff.mp last
  rw [whole] at sorted ⊢
  intro other mem
  obtain mem | mem := List.mem_append.mp mem
  · exact (List.pairwise_append.mp sorted).2.2 other mem data (List.mem_singleton_self _)
  · rw [List.mem_singleton.mp mem]

/-- A user outside what remains reported at most what the last entry has, and the list is full. -/
theorem outside_le {id : UserId} (ranked : Ranked s) (reported : s.reports id = some exp)
    (out : id ∉ (remaining s.rankArr).map RankData.id) :
    s.rankArr.length = lenMax ∧ ∃ data ∈ s.rankArr.getLast?, exp ≤ data.exp := by
  obtain absent | ⟨full, data, last, rfl⟩ := not_remaining out
  · obtain ⟨full, le⟩ := ranked.top id exp reported absent
    cases last : s.rankArr.getLast? with
    | none =>
        rw [List.getLast?_eq_none_iff.mp last] at full
        cases full
    | some data => exact ⟨full, data, rfl, le data (List.mem_of_getLast? last)⟩
  · rw [ranked.last data (List.mem_of_getLast? last)] at reported
    exact ⟨full, data, last, (Option.some.inj reported).ge⟩

theorem ranked_beats (ranked : Ranked s) (beats : Beats s.rankArr r.exp)
    (moved : s.step r = some t) (out : r.id ∉ (remaining s.rankArr).map RankData.id) :
    Ranked t := by
  have reports : t.reports = Function.update s.reports r.id (some r.exp) := by
    obtain rfl := Option.some.inj moved
    rfl
  obtain ⟨front, rest, whole, above, below, inserted, reply⟩ := step_beats ranked beats moved
  have mem_remaining : ∀ data, data ∈ front ++ rest → data ∈ s.rankArr :=
    fun data mem => remaining_sublist.subset (whole ▸ mem)
  have mem_inserted : ∀ data, data ∈ t.rankArr ↔ data = r ∨ data ∈ front ++ rest := by
    intro data
    rw [inserted, List.mem_append, List.mem_cons, List.mem_append]
    exact or_left_comm
  have length : t.rankArr.length = (remaining s.rankArr).length + 1 := by
    rw [whole, inserted, List.length_append, List.length_append, List.length_cons, Nat.add_assoc]
  refine ⟨?_, ?_, ?_, fun data mem => ?_, fun id exp reported absent => ?_, fun id ret told => ?_⟩
  · have sorted := ranked.sorted.sublist remaining_sublist
    rw [whole] at sorted
    obtain ⟨sortedF, sortedB, cross⟩ := List.pairwise_append.mp sorted
    rw [inserted]
    refine List.pairwise_append.mpr ⟨sortedF, List.pairwise_cons.mpr ⟨?_, sortedB⟩, ?_⟩
    · exact fun data mem => (below data mem).le
    · intro a memA b memB
      obtain rfl | memB := List.mem_cons.mp memB
      · exact above a memA
      · exact cross a memA b memB
  · have short := ranked.short
    rw [length, remaining]
    split
    · rename_i full
      rw [List.length_dropLast, full, lenMax]
    · omega
  · have nodup := ranked.once.sublist (remaining_sublist.map RankData.id)
    rw [whole] at nodup out
    rw [inserted, List.map_append, List.map_cons, List.nodup_middle, List.nodup_cons,
      ← List.map_append]
    exact ⟨out, nodup⟩
  · rw [reports]
    obtain rfl | mem := (mem_inserted data).mp mem
    · exact Function.update_self ..
    · have other : data.id ≠ r.id := fun same =>
        out (whole ▸ same ▸ List.mem_map_of_mem mem)
      rw [Function.update_of_ne other]
      exact ranked.last data (mem_remaining data mem)
  · have other : id ≠ r.id := by
      rintro rfl
      exact absent (List.mem_map_of_mem ((mem_inserted r).mpr (.inl rfl)))
    rw [reports, Function.update_of_ne other] at reported
    have outside : id ∉ (remaining s.rankArr).map RankData.id := by
      intro inside
      obtain ⟨data, mem, rfl⟩ := List.mem_map.mp inside
      rw [whole] at mem
      exact absent (List.mem_map_of_mem ((mem_inserted data).mpr (.inr mem)))
    obtain ⟨full, data, last, le⟩ := outside_le ranked reported outside
    refine ⟨?_, fun data' mem => ?_⟩
    · rw [length, remaining, if_pos full, List.length_dropLast, full, lenMax]
    · obtain rfl | mem := (mem_inserted data').mp mem
      · exact le.trans (beats data last).le
      · exact le.trans (remaining_ge ranked.sorted last data' (mem_remaining data' mem))
  · obtain ⟨rfl, rfl⟩ := Prod.mk.inj (Option.some.inj (reply.symm.trans told))
    exact iff_of_true rfl (List.mem_map_of_mem ((mem_inserted r).mpr (.inl rfl)))

theorem ranked_stays (ranked : Ranked s) (beaten : ¬Beats s.rankArr r.exp)
    (moved : s.step r = some t) :
    Ranked t ↔ s.rankArr.length = lenMax ∧ r.id ∉ s.rankArr.map RankData.id := by
  obtain ⟨beats, _⟩ | ⟨_, same⟩ := @UpdateUserExp_cases s r ranked.sorted
  · exact absurd beats beaten
  rw [step, same] at moved
  obtain rfl := Option.some.inj moved
  constructor
  · intro ranked'
    have out : r.id ∉ s.rankArr.map RankData.id := by
      intro mem
      nomatch (ranked'.told r.id false rfl).mpr mem
    exact ⟨(ranked'.top r.id r.exp (Function.update_self ..) out).1, out⟩
  · rintro ⟨full, out⟩
    refine ⟨ranked.sorted, ranked.short, ranked.once, fun data mem => ?_,
      fun id exp reported absent => ?_, fun id ret told => ?_⟩
    · have other : data.id ≠ r.id := fun same => out (same ▸ List.mem_map_of_mem mem)
      exact (Function.update_of_ne other ..).trans (ranked.last data mem)
    · by_cases other : id = r.id
      · subst other
        simp only [Function.update_self, Option.some.injEq] at reported
        subst reported
        rw [Beats] at beaten
        push Not at beaten
        obtain ⟨data, last, le⟩ := beaten
        exact ⟨full, fun data' mem => le.trans (remaining_ge ranked.sorted last data' mem)⟩
      · exact ranked.top id exp ((Function.update_of_ne other ..).symm.trans reported) absent
    · obtain ⟨rfl, rfl⟩ := Prod.mk.inj (Option.some.inj told)
      exact iff_of_false Bool.false_ne_true out

/-- A step keeps the list in order, if and only if the report fits. -/
theorem ranked_step (ranked : Ranked s) (moved : s.step r = some t) : Ranked t ↔ s.Fits r := by
  by_cases beats : Beats s.rankArr r.exp
  · have fits : s.Fits r ↔ r.id ∉ (remaining s.rankArr).map RankData.id := by
      rw [Fits, and_iff_right beats]
      exact or_iff_left fun other => other.1 beats
    rw [fits]
    refine ⟨fun ranked' => ?_, ranked_beats ranked beats moved⟩
    obtain ⟨front, rest, whole, _, _, inserted, _⟩ := step_beats ranked beats moved
    have once := ranked'.once
    rw [inserted, List.map_append, List.map_cons, List.nodup_middle, List.nodup_cons,
      ← List.map_append, ← whole] at once
    exact once.1
  · rw [ranked_stays ranked beats moved, Fits]
    rw [or_iff_right fun other => beats other.1, and_iff_right beats]

theorem ranked_start : Ranked start :=
  ⟨List.Pairwise.nil, Nat.zero_le _, List.nodup_nil, fun _ mem => (nomatch mem),
    fun _ _ reported => (nomatch reported), fun _ _ told => (nomatch told)⟩

/-- What is looked up of a user is his last report. -/
theorem GetRankUser_last {id : UserId} {data : RankData} (ranked : Ranked s)
    (found : s.GetRankUser id = some data) : s.reports id = some data.exp := by
  obtain ⟨mem, rfl⟩ := (find_keyed ranked.once).mp found
  exact ranked.last data mem

variable {reports : List RankData}

/-- Along the reports of a season the list is in order, if and only if all of them fit. -/
theorem run_ranked (run : Run step anyStep start reports s) :
    Run step Fits start reports s ↔
      ∀ front t, front <+: reports → Run step anyStep start front t → Ranked t := by
  refine run.always_iff Ranked ranked_start fun front t e u before moved => ?_
  have ranked := before.invariant Ranked ranked_start fun t e u ranked fits moved =>
    (ranked_step ranked moved).mpr fits
  exact ranked_step ranked moved

end Scan

def threeReports : List RankData := [⟨1, 10⟩, ⟨2, 20⟩, ⟨3, 15⟩]

/-- The third report is inserted between the others. -/
theorem run_ranked_three : ∃ s, Run step anyStep start threeReports s ∧
    s.rankArr = [⟨2, 20⟩, ⟨3, 15⟩, ⟨1, 10⟩] ∧
    (Run step Fits start threeReports s ↔
      ∀ front t, front <+: threeReports → Run step anyStep start front t → Ranked t) := by
  have run := @run_of_exec _ _ step start threeReports _ rfl
  exact ⟨_, run, by decide +kernel, run_ranked run⟩

/-- A user who reports more than before is in the list twice. -/
theorem ranked_fails : ¬∀ reports s, Run step anyStep start reports s → Ranked s := by
  intro ranked
  have run := @run_of_exec _ _ step start [⟨7, 10⟩, ⟨7, 20⟩] _ rfl
  exact absurd (ranked _ _ run).once (by decide +kernel)

end SeasonRank

end HuluLandlord.Services
