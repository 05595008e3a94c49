import HuluLandlord.Define
import HuluLandlord.Table
import HuluLandlord.Transition

/-!
What the ranking lists of popularity, likes, achievement and gourd are made of: for each user a
record of the totals and one of the month, in memory and in a table each. Heads and frames are
compared as texts, a title that is not set is read as 0, and `refresh_t`, which is only in
memory, is left out. The lists themselves are read from the tables elsewhere.
-/
namespace HuluLandlord.Services
open Transition

/-- The boards that are reported to with a total and a delta. -/
inductive RankBoard
  | rq | dz | cj | hlt
  deriving DecidableEq, Repr

structure RankProfile where
  nickname : String
  head : String
  headframe : String
  deriving DecidableEq, Repr

/-- A record, or a row, of a user. -/
structure RkInfo where
  profile : RankProfile
  val : RankBoard → Int
  time : RankBoard → Int
  title : Option Int

/-- One of the two caches with its table. -/
structure RankTable where
  cache : UserId → Option RkInfo
  rows : UserId → Option RkInfo

/-- What the row of a user says; there is none of achievements yet. -/
structure RankUser where
  giftCount : Option Int
  like : Option Int
  gourdExp : Option Int
  deriving DecidableEq, Repr

inductive RankCall
  | update_rq (rq rq_add : Int)
  | update_dz (dz dz_add : Int)
  | update_cj (cj : Option Int) (cj_add : Int) (title : Option Int)
  | update_hlt (hlt hlt_add : Int)
  deriving DecidableEq, Repr

/-- `now` and `user` are what a call reads. -/
inductive RankEvent
  | call (uid : UserId) (p : RankProfile) (now : Int) (user : Option RankUser) (c : RankCall)
  | next_month_check (now : Int)
  | restart
  deriving DecidableEq, Repr

/-- `deltas` is the sum of what was reported since the last roll-over, and `totals` the last total
that was not 0. -/
structure RankState where
  total : RankTable
  month : RankTable
  t : Int
  deltas : UserId → RankBoard → Int
  totals : UserId → RankBoard → Option Int

/-- The record of a user who has none. -/
def newRkInfo (p : RankProfile) (now : Int) (user : Option RankUser) : RkInfo where
  profile := p
  val
    | .rq => (user.bind RankUser.giftCount).getD 0
    | .dz => (user.bind RankUser.like).getD 0
    | .cj => 0
    | .hlt => (user.bind RankUser.gourdExp).getD 0
  time := fun _ => now
  title := some 0

namespace RkInfo

/-- A report to a board; without `f` the figure stays, without `title` the title. -/
def write (rk : RkInfo) (b : RankBoard) (f : Option (Int → Int)) (title : Option (Option Int))
    (now : Int) : RkInfo where
  profile := rk.profile
  val := match f with
    | none => rk.val
    | some f => Function.update rk.val b (f (rk.val b))
  time := match f with
    | none => rk.time
    | some _ => Function.update rk.time b now
  title := title.getD rk.title

/-- `dbx.update` of a row from its record; a title that is `nil` is not in the update. -/
def save (row rk : RkInfo) (b : RankBoard) (p : RankProfile) (title : Option (Option Int)) :
    RkInfo where
  profile := p
  val := Function.update row.val b (rk.val b)
  time := Function.update row.time b (rk.time b)
  title := title.join.or row.title

end RkInfo

namespace RankTable

/-- `get_user_rkinfo` and `get_user_rkinfo_m`: the record is in memory afterwards. -/
def get_user_rkinfo (T : RankTable) (uid : UserId) (p : RankProfile) (new : RkInfo) : RankTable :=
  match T.cache uid with
  | none => match T.rows uid with
      | none =>
          { cache := Function.update T.cache uid (some new)
            rows := Function.update T.rows uid (some new) }
      | some rk => { T with cache := Function.update T.cache uid (some rk) }
  | some user_info =>
      { T with cache := Function.update T.cache uid (some { user_info with profile := p }) }

/-- A report to a table. -/
def update (T : RankTable) (uid : UserId) (p : RankProfile) (new : RkInfo) (b : RankBoard)
    (f : Option (Int → Int)) (title : Option (Option Int)) (now : Int) : RankTable :=
  let T := T.get_user_rkinfo uid p new
  match T.cache uid with
  | none => T
  | some rkinfo =>
      let rkinfo := rkinfo.write b f title now
      { cache := Function.update T.cache uid (some rkinfo)
        rows := Function.update T.rows uid
          ((T.rows uid).map fun row => row.save rkinfo b p title) }

/-- The record of a user, or his row. -/
def info (T : RankTable) (uid : UserId) : Option RkInfo := (T.cache uid).or (T.rows uid)

end RankTable

/-- What one of the update functions writes to the total and to the figure of the month. -/
structure RankReport where
  board : RankBoard
  total : Option (Int → Int)
  month : Option (Int → Int)
  title : Option (Option Int)

def update_rq (rq rq_add : Int) : RankReport := ⟨.rq, some fun _ => rq, some (· + rq_add), none⟩

def update_dz (dz dz_add : Int) : RankReport := ⟨.dz, some fun _ => dz, some (· + dz_add), none⟩

/-- Without a total, or with 0, only the title is new; and the figure of the month is written as
it is. -/
def update_cj (cj : Option Int) (_cj_add : Int) (title : Option Int) : RankReport :=
  match cj with
  | none => ⟨.cj, none, none, some title⟩
  | some cj =>
      if cj = 0 then ⟨.cj, none, none, some title⟩
      else ⟨.cj, some fun _ => cj, some fun cj => cj, some title⟩

def update_hlt (hlt hlt_add : Int) : RankReport :=
  ⟨.hlt, some fun _ => hlt, some (· + hlt_add), none⟩

namespace RankCall

def report : RankCall → RankReport
  | .update_rq rq rq_add => Services.update_rq rq rq_add
  | .update_dz dz dz_add => Services.update_dz dz dz_add
  | .update_cj cj cj_add title => Services.update_cj cj cj_add title
  | .update_hlt hlt hlt_add => Services.update_hlt hlt hlt_add

/-- The total and the delta a call reports. -/
def reported : RankCall → Option Int × Int
  | .update_rq rq rq_add => (some rq, rq_add)
  | .update_dz dz dz_add => (some dz, dz_add)
  | .update_cj cj cj_add _ => (cj, cj_add)
  | .update_hlt hlt hlt_add => (some hlt, hlt_add)

end RankCall

namespace RankState
variable (ym : Int → Nat)

def call (s : RankState) (uid : UserId) (p : RankProfile) (now : Int) (user : Option RankUser)
    (c : RankCall) : RankState where
  total := s.total.update uid p (newRkInfo p now user) c.report.board c.report.total
    c.report.title now
  month := s.month.update uid p (newRkInfo p now none) c.report.board c.report.month
    c.report.title now
  t := s.t
  deltas := Function.update s.deltas uid (Function.update (s.deltas uid) c.report.board
    (s.deltas uid c.report.board + c.reported.2))
  totals := Function.update s.totals uid (Function.update (s.totals uid) c.report.board
    ((c.reported.1.filter fun v => v ≠ 0).or (s.totals uid c.report.board)))

/-- `ym` is the year and month of a time, `check_same_month` compares them. -/
def next_month_check (s : RankState) (now : Int) : RankState :=
  if ym s.t = ym now then s
  else { s with month := ⟨fun _ => none, fun _ => none⟩, t := now, deltas := fun _ _ => 0 }

def step (s : RankState) : RankEvent → Option RankState
  | .call uid p now user c => some (s.call uid p now user c)
  | .next_month_check now => some (s.next_month_check ym now)
  | .restart => some { s with
      total := { s.total with cache := fun _ => none }
      month := { s.month with cache := fun _ => none } }

/-- The service in a month nothing has been reported in. -/
def start (rows : UserId → Option RkInfo) (t : Int) : RankState :=
  ⟨⟨fun _ => none, rows⟩, ⟨fun _ => none, fun _ => none⟩, t, fun _ _ => 0, fun _ _ => none⟩

end RankState

/-- A record and its row say the same. -/
structure RkInfo.Same (rk row : RkInfo) : Prop where
  profile : rk.profile = row.profile
  val : rk.val = row.val
  time : rk.time = row.time
  title : rk.title.getD 0 = row.title.getD 0

/-- Every record has its row. -/
def RankTable.Agree (T : RankTable) : Prop :=
  ∀ uid rk, T.cache uid = some rk → ∃ row, T.rows uid = some row ∧ rk.Same row

/-- The figures are what was reported, and the tables agree with the memory. -/
structure OnBoard (s : RankState) : Prop where
  monthly : ∀ uid b, ((s.month.info uid).map fun rk => rk.val b).getD 0 = s.deltas uid b
  total : ∀ uid b v, s.totals uid b = some v →
    (s.total.info uid).map (fun rk => rk.val b) = some v
  agree : s.total.Agree
  agreeMonth : s.month.Agree

/-- A record that is read from its row has the profile that is reported, and without a title
there has been none. -/
def RankTable.Named (T : RankTable) (uid : UserId) (p : RankProfile) (c : RankCall) : Prop :=
  (T.cache uid = none → ∀ row ∈ T.rows uid, row.profile = p) ∧
    (c.report.title = some none → ∀ row ∈ T.rows uid, row.title.getD 0 = 0)

/-- Achievement points come without a delta, the total of another board is 0 only as long as it
has never been anything else, and both records are those of the user. -/
def RankState.Kept (s : RankState) : RankEvent → Prop
  | .call uid p _ _ c => s.total.Named uid p c ∧ s.month.Named uid p c ∧
      (c.report.board = .cj → c.reported.2 = 0) ∧
      (c.report.board ≠ .cj → c.reported.1 = some 0 → s.totals uid c.report.board = none)
  | _ => True

section Tables
variable {T : RankTable} {uid u : UserId} {p : RankProfile} {new : RkInfo} {b : RankBoard}
  {f : Option (Int → Int)} {title : Option (Option Int)} {now : Int} {rk row : RkInfo}

/-- A record that has been written and its row say the same, where they did before. -/
theorem same_save (val : rk.val = row.val) (time : rk.time = row.time)
    (titles : rk.title.getD 0 = row.title.getD 0) :
    (rk.write b f title now).Same (row.save (rk.write b f title now) b p title) ↔
      rk.profile = p ∧ (title = some none → row.title.getD 0 = 0) := by
  constructor
  · intro same
    refine ⟨same.profile, ?_⟩
    rintro rfl
    exact same.title.symm
  · rintro ⟨profile, untitled⟩
    refine ⟨profile, ?_, ?_, ?_⟩
    · simp only [RkInfo.save, RkInfo.write]
      cases f with
      | none => exact val.trans (Function.update_eq_self_iff.mpr (congrFun val b)).symm
      | some f =>
          simp only [Function.update_self]
          rw [val]
    · simp only [RkInfo.save, RkInfo.write]
      cases f with
      | none => exact time.trans (Function.update_eq_self_iff.mpr (congrFun time b)).symm
      | some f =>
          simp only [Function.update_self]
          rw [time]
    · match title, untitled with
      | none, _ => exact titles
      | some none, untitled => exact (untitled rfl).symm
      | some (some title), _ => rfl

/-- The record that is written and its row, as `get_user_rkinfo` leaves them. -/
theorem get_user_rkinfo_spec (agree : T.Agree) (profile : new.profile = p)
    (untitled : new.title.getD 0 = 0) : ∃ rk row,
      (T.get_user_rkinfo uid p new).cache = Function.update T.cache uid (some rk) ∧
      (T.get_user_rkinfo uid p new).rows = Function.update T.rows uid (some row) ∧
      rk.val = row.val ∧ rk.time = row.time ∧ rk.title.getD 0 = row.title.getD 0 ∧
      (rk.profile = p ↔ (T.cache uid = none → ∀ row ∈ T.rows uid, row.profile = p)) ∧
      (row.title.getD 0 = 0 ↔ ∀ row ∈ T.rows uid, row.title.getD 0 = 0) ∧
      rk.val = ((T.info uid).map RkInfo.val).getD new.val := by
  rw [RankTable.get_user_rkinfo, RankTable.info]
  cases cached : T.cache uid with
  | none =>
      cases stored : T.rows uid with
      | none =>
          refine ⟨new, new, rfl, rfl, rfl, rfl, rfl, ?_, ?_, rfl⟩
          · exact iff_of_true profile fun _ row none_ => (nomatch none_)
          · exact iff_of_true untitled fun row none_ => (nomatch none_)
      | some row =>
          refine ⟨row, row, rfl, ?_, rfl, rfl, rfl, ?_, ?_, rfl⟩
          · exact (Function.update_eq_self_iff.mpr stored.symm).symm
          · exact ⟨fun same _ other found => Option.some.inj found ▸ same,
              fun all => all rfl row rfl⟩
          · exact ⟨fun same other found => Option.some.inj found ▸ same, fun all => all row rfl⟩
  | some user_info =>
      obtain ⟨row, stored, same⟩ := agree uid user_info cached
      refine ⟨{ user_info with profile := p }, row, rfl, ?_, same.val, same.time, same.title, ?_,
        ?_, rfl⟩
      · exact (Function.update_eq_self_iff.mpr stored.symm).symm
      · exact iff_of_true rfl fun none_ => (nomatch none_)
      · rw [stored]
        exact ⟨fun same other found => Option.some.inj found ▸ same, fun all => all row rfl⟩

/-- A report to a table writes the record and the row of the user, which agree if and only if the
record is named as the report is; the figures are those before with the report. -/
theorem update_spec (agree : T.Agree) (profile : new.profile = p) (untitled : new.title.getD 0 = 0) :
    ((T.update uid p new b f title now).Agree ↔
      (T.cache uid = none → ∀ row ∈ T.rows uid, row.profile = p) ∧
        (title = some none → ∀ row ∈ T.rows uid, row.title.getD 0 = 0)) ∧
      (∀ u, u ≠ uid → (T.update uid p new b f title now).info u = T.info u) ∧
      ∃ val, ((T.update uid p new b f title now).info uid).map RkInfo.val = some val ∧
        let old := ((T.info uid).map RkInfo.val).getD new.val
        val = match f with
          | none => old
          | some f => Function.update old b (f (old b)) := by
  obtain ⟨rk, row, cache, rows, vals, time, titles, named, none_, old⟩ :=
    @get_user_rkinfo_spec T uid p new agree profile untitled
  have written : T.update uid p new b f title now =
      ⟨Function.update T.cache uid (some (rk.write b f title now)),
        Function.update T.rows uid (some (row.save (rk.write b f title now) b p title))⟩ := by
    rw [RankTable.update, cache, rows]
    simp only [Function.update_self, Function.update_idem, Option.map_some]
  rw [written]
  have same := @same_save p b f title now rk row vals time titles
  refine ⟨?_, fun u other => ?_, (rk.write b f title now).val, ?_, ?_⟩
  · rw [← named, ← none_, ← same]
    constructor
    · intro all
      obtain ⟨row', found, same'⟩ := all uid _ (Function.update_self ..)
      simp only [Function.update_self, Option.some.injEq] at found
      exact found ▸ same'
    · intro here u rk' found
      simp only at found
      obtain ⟨rfl, rfl⟩ | ⟨other, found⟩ := Table.update_some found
      · exact ⟨_, Function.update_self .., here⟩
      · simp only [Function.update_of_ne other]
        exact agree u rk' found
  · simp only [RankTable.info, Function.update_of_ne other]
  · simp only [RankTable.info, Function.update_self, Option.some_or, Option.map_some]
  · rw [← old]
    rfl

end Tables

section Figures
variable {old : RankBoard → Int} {totals : RankBoard → Option Int} {b : RankBoard} {w : Int}

/-- What a report leaves of the figures. -/
def figures (old : RankBoard → Int) (b : RankBoard) : Option (Int → Int) → RankBoard → Int
  | none => old
  | some f => Function.update old b (f (old b))

theorem update_cj_board {cj : Option Int} {cj_add : Int} {title : Option Int} :
    (update_cj cj cj_add title).board = .cj := by
  rw [update_cj.eq_def]
  split
  · rfl
  · split <;> rfl

/-- The figures of the month go up by the delta, save for achievements, where they stay. -/
theorem month_figures (c : RankCall) :
    figures old c.report.board c.report.month =
        Function.update old c.report.board (old c.report.board + c.reported.2) ↔
      (c.report.board = .cj → c.reported.2 = 0) := by
  cases c with
  | update_rq rq rq_add => exact iff_of_true rfl fun cj => (nomatch cj)
  | update_dz dz dz_add => exact iff_of_true rfl fun cj => (nomatch cj)
  | update_hlt hlt hlt_add => exact iff_of_true rfl fun cj => (nomatch cj)
  | update_cj cj cj_add title =>
      have board : (RankCall.update_cj cj cj_add title).report.board = .cj :=
        @update_cj_board cj cj_add title
      have stays : figures old .cj (RankCall.update_cj cj cj_add title).report.month = old := by
        rw [RankCall.report, update_cj.eq_def]
        split
        · rfl
        · split
          · rfl
          · exact Function.update_eq_self _ _
      rw [board, stays, RankCall.reported]
      constructor
      · intro same _
        have here := congrFun same .cj
        rw [Function.update_self] at here
        omega
      · intro zero
        rw [zero rfl, add_zero, Function.update_eq_self]

/-- A total that is written is the last one that was not 0, unless it is 0 after another. -/
theorem plain_total (nonzero : totals b ≠ some 0) (prev : ∀ b v, totals b = some v → old b = v) :
    (∀ b' v, Function.update totals b (((some w).filter fun v => v ≠ 0).or (totals b)) b' = some v →
        Function.update old b w b' = v) ↔ (w = 0 → totals b = none) := by
  constructor
  · rintro all rfl
    by_contra some_
    obtain ⟨v, found⟩ := Option.ne_none_iff_exists'.mp some_
    have here := all b v (by rw [Function.update_self]; exact found)
    rw [Function.update_self] at here
    exact nonzero (here ▸ found)
  · intro zero b' v
    by_cases here : b' = b
    · subst here
      rw [Function.update_self, Function.update_self]
      by_cases none_ : w = 0
      · rw [zero none_, none_]
        exact fun found => (nomatch found)
      · rw [Option.filter_some, if_pos (decide_eq_true none_)]
        exact Option.some.inj
    · rw [Function.update_of_ne here, Function.update_of_ne here]
      exact prev b' v

theorem zero_iff {P : Prop} (plain : b ≠ .cj) :
    (w = 0 → P) ↔ (b ≠ .cj → some w = some 0 → P) :=
  ⟨fun all _ zero => all (Option.some.inj zero), fun all zero => all plain (congrArg some zero)⟩

theorem total_figures (c : RankCall) (nonzero : ∀ b, totals b ≠ some 0)
    (prev : ∀ b v, totals b = some v → old b = v) :
    (∀ b v, Function.update totals c.report.board
          ((c.reported.1.filter fun v => v ≠ 0).or (totals c.report.board)) b = some v →
        figures old c.report.board c.report.total b = v) ↔
      (c.report.board ≠ .cj → c.reported.1 = some 0 → totals c.report.board = none) := by
  cases c with
  | update_rq rq rq_add =>
      exact (plain_total (nonzero .rq) prev).trans (zero_iff fun cj => nomatch cj)
  | update_dz dz dz_add =>
      exact (plain_total (nonzero .dz) prev).trans (zero_iff fun cj => nomatch cj)
  | update_hlt hlt hlt_add =>
      exact (plain_total (nonzero .hlt) prev).trans (zero_iff fun cj => nomatch cj)
  | update_cj cj cj_add title =>
      have board : (RankCall.update_cj cj cj_add title).report.board = .cj :=
        @update_cj_board cj cj_add title
      have same : ∀ b v, Function.update totals .cj (totals .cj) b = some v → old b = v := by
        rw [Function.update_eq_self]
        exact prev
      refine iff_of_true ?_ fun other => absurd board other
      rw [board]
      cases cj with
      | none => exact same
      | some cj =>
          by_cases zero : cj = 0
          · subst zero
            exact same
          · have total : (RankCall.update_cj (some cj) cj_add title).report.total =
                some fun _ => cj := by
              rw [RankCall.report, update_cj]
              simp only [if_neg zero]
            rw [total]
            exact (plain_total (nonzero .cj) prev).mpr fun none_ => absurd none_ zero

end Figures

/-- The last total that was not 0 is not 0. -/
def RankState.Noted (s : RankState) : Prop := ∀ uid b, s.totals uid b ≠ some 0

namespace RankState
variable {ym : Int → Nat} {s s' : RankState} {uid : UserId} {p : RankProfile} {now : Int}
  {user : Option RankUser} {c : RankCall} {e : RankEvent}

theorem noted_call (noted : s.Noted) : (s.call uid p now user c).Noted := by
  intro u b
  by_cases here : u = uid
  · subst here
    by_cases board : b = c.report.board
    · subst board
      simp only [call, Function.update_self]
      cases c.reported.1 with
      | none => exact noted u _
      | some v =>
          by_cases zero : v = 0
          · subst zero
            exact noted u _
          · rw [Option.filter_some, if_pos (decide_eq_true zero)]
            exact fun found => zero (Option.some.inj found)
    · simp only [call, Function.update_self, Function.update_of_ne board]
      exact noted u b
  · simp only [call, Function.update_of_ne here]
    exact noted u b

theorem map_val {info : Option RkInfo} {val : RankBoard → Int} (b : RankBoard)
    (found : info.map RkInfo.val = some val) : info.map (fun rk => rk.val b) = some (val b) := by
  obtain ⟨rk, rfl, rfl⟩ := Option.map_eq_some_iff.mp found
  rfl

theorem monthly_call (board : OnBoard s) :
    (∀ u b, (((s.call uid p now user c).month.info u).map fun rk => rk.val b).getD 0 =
        (s.call uid p now user c).deltas u b) ↔ (c.report.board = .cj → c.reported.2 = 0) := by
  obtain ⟨_, others, val, found, written⟩ := @update_spec s.month uid p (newRkInfo p now none)
    c.report.board c.report.month c.report.title now board.agreeMonth rfl rfl
  have before : ((s.month.info uid).map RkInfo.val).getD (newRkInfo p now none).val =
      s.deltas uid := by
    funext b
    rw [← board.monthly uid b]
    cases s.month.info uid with
    | none => cases b <;> rfl
    | some rk => rfl
  simp only [before] at written
  rw [← @month_figures (s.deltas uid) c]
  have after : figures (s.deltas uid) c.report.board c.report.month = val := by
    rw [written, figures.eq_def]
  rw [after]
  constructor
  · intro all
    funext b
    have here := all uid b
    simp only [call, map_val b found, Function.update_self, Option.getD_some] at here
    exact here
  · intro same u b
    by_cases here : u = uid
    · subst here
      simp only [call, map_val b found, Function.update_self, Option.getD_some, same]
    · simp only [call, others u here, Function.update_of_ne here]
      exact board.monthly u b

theorem total_call (board : OnBoard s) (noted : s.Noted) :
    (∀ u b v, (s.call uid p now user c).totals u b = some v →
        ((s.call uid p now user c).total.info u).map (fun rk => rk.val b) = some v) ↔
      (c.report.board ≠ .cj → c.reported.1 = some 0 → s.totals uid c.report.board = none) := by
  obtain ⟨_, others, val, found, written⟩ := @update_spec s.total uid p (newRkInfo p now user)
    c.report.board c.report.total c.report.title now board.agree rfl rfl
  have prev : ∀ b v, s.totals uid b = some v →
      ((s.total.info uid).map RkInfo.val).getD (newRkInfo p now user).val b = v := by
    intro b v last
    obtain ⟨rk, info, val⟩ := Option.map_eq_some_iff.mp (board.total uid b v last)
    rw [info]
    exact val
  rw [← total_figures c (noted uid) prev]
  have after : figures (((s.total.info uid).map RkInfo.val).getD (newRkInfo p now user).val)
      c.report.board c.report.total = val := by
    rw [written, figures.eq_def]
  rw [after]
  constructor
  · intro all b v last
    have here := all uid b v
    simp only [call, map_val b found, Function.update_self, Option.some.injEq] at here
    exact here last
  · intro all u b v
    by_cases here : u = uid
    · subst here
      simp only [call, map_val b found, Function.update_self, Option.some.injEq]
      exact all b v
    · simp only [call, others u here, Function.update_of_ne here]
      exact board.total u b v

/-- The rows alone have the same figures. -/
theorem rows_val {T : RankTable} (agree : T.Agree) (u : UserId) (b : RankBoard) :
    (T.rows u).map (fun rk => rk.val b) = (T.info u).map fun rk => rk.val b := by
  rw [RankTable.info]
  cases cached : T.cache u with
  | none => rfl
  | some rk =>
      obtain ⟨row, stored, same⟩ := agree u rk cached
      rw [stored]
      exact congrArg some (congrFun same.val b).symm

/-- A step keeps the boards, if and only if what is reported can be kept. -/
theorem board_step (board : OnBoard s) (noted : s.Noted) (moved : s.step ym e = some s') :
    s'.Noted ∧ (OnBoard s' ↔ s.Kept e) := by
  cases e with
  | call uid p now user c =>
      obtain rfl := Option.some.inj moved
      refine ⟨noted_call noted, ?_⟩
      have agree := (@update_spec s.total uid p (newRkInfo p now user) c.report.board
        c.report.total c.report.title now board.agree rfl rfl).1
      have agreeMonth := (@update_spec s.month uid p (newRkInfo p now none) c.report.board
        c.report.month c.report.title now board.agreeMonth rfl rfl).1
      rw [Kept, RankTable.Named, RankTable.Named, ← agree, ← agreeMonth, ← monthly_call board,
        ← total_call board noted]
      exact ⟨fun after => ⟨after.agree, after.agreeMonth, after.monthly, after.total⟩,
        fun ⟨agree, agreeMonth, monthly, total⟩ => ⟨monthly, total, agree, agreeMonth⟩⟩
  | next_month_check now =>
      obtain rfl := Option.some.inj moved
      rw [next_month_check]
      split
      · exact ⟨noted, iff_of_true board trivial⟩
      · exact ⟨noted, iff_of_true ⟨fun _ _ => rfl, board.total, board.agree,
          fun _ _ cached => (nomatch cached)⟩ trivial⟩
  | restart =>
      obtain rfl := Option.some.inj moved
      refine ⟨noted, iff_of_true ⟨fun u b => ?_, fun u b v last => ?_,
        fun _ _ cached => (nomatch cached), fun _ _ cached => (nomatch cached)⟩ trivial⟩
      · have same := rows_val board.agreeMonth u b
        rw [← board.monthly u b, ← same]
        rfl
      · have same := rows_val board.agree u b
        rw [← board.total u b v last, ← same]
        rfl

variable {rows : UserId → Option RkInfo} {t : Int} {es : List RankEvent}

theorem board_start : OnBoard (start rows t) ∧ (start rows t).Noted :=
  ⟨⟨fun _ _ => rfl, fun _ _ _ last => (nomatch last), fun _ _ cached => (nomatch cached),
    fun _ _ cached => (nomatch cached)⟩, fun _ _ last => (nomatch last)⟩

/-- Along a run the boards are what was reported and the tables agree with the memory, if and only
if all reports can be kept. -/
theorem run_board (run : Run (step ym) anyStep (start rows t) es s) :
    Run (step ym) Kept (start rows t) es s ↔
      ∀ front u, front <+: es → Run (step ym) anyStep (start rows t) front u → OnBoard u := by
  refine run.always_iff OnBoard board_start.1 fun front u e v before moved => ?_
  obtain ⟨board, noted⟩ := before.invariant (fun s => OnBoard s ∧ s.Noted) board_start
    fun _ _ _ inv kept moved =>
      ⟨(board_step inv.1 inv.2 moved).2.mpr kept, (board_step inv.1 inv.2 moved).1⟩
  exact (board_step board noted moved).2

end RankState

def rankProfile : RankProfile := ⟨"a", "1", "165002"⟩

def rankEvents : List RankEvent :=
  [.call 1 rankProfile 100 none (.update_rq 5 5), .call 1 rankProfile 110 none (.update_rq 8 3),
    .call 1 rankProfile 120 none (.update_hlt 20 20), .next_month_check 3000000,
    .call 1 rankProfile 3000100 none (.update_rq 10 2)]

/-- The figure of a month is the sum of its deltas, also after a roll-over. -/
theorem run_board_months : ∃ s,
    Run (RankState.step fun t => (t / 2592000).toNat) anyStep (RankState.start (fun _ => none) 0)
      rankEvents s ∧
    s.deltas 1 .rq = 2 ∧ (s.total.info 1).map (fun rk => rk.val .rq) = some 10 ∧
    (Run (RankState.step fun t => (t / 2592000).toNat) RankState.Kept
        (RankState.start (fun _ => none) 0) rankEvents s ↔
      ∀ front u, front <+: rankEvents →
        Run (RankState.step fun t => (t / 2592000).toNat) anyStep
          (RankState.start (fun _ => none) 0) front u → OnBoard u) := by
  have run := @run_of_exec _ _ (RankState.step fun t => (t / 2592000).toNat)
    (RankState.start (fun _ => none) 0) rankEvents _ rfl
  exact ⟨_, run, by decide +kernel, by decide +kernel, RankState.run_board run⟩

/-- A user earns ten achievement points, and none in the month. -/
theorem board_fails : ¬∀ ym rows t es s,
    Run (RankState.step ym) anyStep (RankState.start rows t) es s → OnBoard s := by
  intro board
  have run := @run_of_exec _ _ (RankState.step fun _ => 0) (RankState.start (fun _ => none) 0)
    [.call 1 rankProfile 100 none (.update_cj (some 10) 10 (some 0))] _ rfl
  exact absurd ((board _ _ _ _ _ run).monthly 1 .cj) (by decide +kernel)





end HuluLandlord.Services
