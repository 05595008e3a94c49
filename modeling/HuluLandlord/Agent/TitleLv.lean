import HuluLandlord.Agent.UserItem
import HuluLandlord.Table
import HuluLandlord.Transition

/-!
The rank of a user. The level goes with the experience through a table of thresholds; on the
two highest levels it goes with the list of the season instead. The largest level ever, and
that of the season, are kept beside it, each with the experience it was reached with. A new
season puts the user back on a lower level.
-/
namespace HuluLandlord.Agent
open Transition Table

/-- A row of `cfg_title_rewards`. -/
structure TitleRow where
  level : Nat
  exp : Int
  end_lv : Nat
  level_up_rewards : List Entry
  rewards : List Entry
  deriving DecidableEq, Repr

/-- `datax.titleRewards`. The levels of the table are `1`, `2` and so on. -/
structure TitleTable where
  rows : List TitleRow
  levels : rows.map TitleRow.level = List.range' 1 rows.length

/-- The part of `userInfo` that is about the rank. -/
structure LvInfo where
  lv : Nat
  exp : Int
  lvMax : Option Nat
  expMax : Option Int
  lvSeasonMax : Option Nat
  expSeasonMax : Option Int
  seasonId : Option Nat
  valVersionKey : Option String
  deriving DecidableEq, Repr

structure RankUser where
  id : Nat
  exp : Int
  deriving DecidableEq, Repr

/-- The data of `user_season`: the number of the season, and the lists of all of them. -/
structure SeasonServer where
  index : Nat
  rankArr : Nat → List RankUser

/-- What the services answer while a level is computed: whether `user_season` does, and the
rank that `ranklistmanager` gives. -/
structure Answers where
  season : Bool
  rank : Option Nat
  deriving DecidableEq, Repr

namespace TitleTable
variable (cfg : TitleTable)

def row (lv : Nat) : Option TitleRow := cfg.rows.find? fun c => c.level = lv

/-- The largest level, which is also how many there are. -/
def maxLevel : Nat := cfg.rows.length

/-- The loop downwards. Below the first level it raises, and leaves the level it has come to. -/
def lowerLv (exp : Int) (lv : Nat) : Nat → Except Nat Nat
  | 0 => .error lv
  | i + 1 => match cfg.row (i + 1) with
      | none => .error lv
      | some sData => if exp ≥ sData.exp then .ok sData.level else lowerLv exp sData.level i

/-- The loop upwards, with the number of levels that are left. -/
def raiseLv (exp : Int) (lv : Nat) : Nat → Nat
  | 0 => lv
  | n + 1 => match cfg.row (lv + 1) with
      | none => lv
      | some sData => if exp < sData.exp then lv else raiseLv exp sData.level n

/-- The level by the table, starting from another. Outside the table there is none. -/
def baseLv (exp : Int) (lv : Nat) : Option (Except Nat Nat) :=
  match cfg.row lv with
  | none => none
  | some sData =>
      if exp < sData.exp then some (cfg.lowerLv exp lv lv)
      else if exp > sData.exp then some (.ok (cfg.raiseLv exp lv (cfg.maxLevel - lv)))
      else some (.ok lv)

/-- The level by the list of the season, where there is an answer. -/
def rankLv (lv : Nat) (ret : Option Bool) : Nat :=
  match ret with
  | none => lv
  | some ret => if ret then cfg.maxLevel else cfg.maxLevel - 1

end TitleTable

namespace SeasonServer

/-- `UpdateUserExp`: the list has the larger experience first, and is entered above the last
at least, or when it is empty. -/
def UpdateUserExp (srv : SeasonServer) (id : Nat) (exp : Int) : SeasonServer × Bool :=
  let rankArr := srv.rankArr srv.index
  let idx := rankArr.length - (rankArr.reverse.takeWhile fun data => exp > data.exp).length
  if idx < rankArr.length ∨ rankArr = [] then
    let entered := rankArr.take idx ++ ⟨id, exp⟩ :: rankArr.drop idx
    let entered := if rankArr.length ≥ 100 then entered.eraseIdx 100 else entered
    ({ srv with rankArr := Function.update srv.rankArr srv.index entered }, true)
  else (srv, false)

def GetRankUser (srv : SeasonServer) (seasonId id : Nat) : Bool :=
  (srv.rankArr seasonId).any fun value => value.id = id

/-- `addSeasonData`. -/
def addSeasonData (srv : SeasonServer) : SeasonServer where
  index := srv.index + 1
  rankArr := Function.update srv.rankArr (srv.index + 1) []

end SeasonServer

/-- A maximum with its experience, where the experience is a new one. -/
def raiseMax (lv : Nat) (exp : Int) (lvMax : Option Nat) (expMax : Option Int) :
    Option Nat × Option Int :=
  if expMax.all fun e => exp > e then (if lvMax.getD 0 < lv then some lv else lvMax, some exp)
  else (lvMax, expMax)

namespace LvInfo
variable (cfg : TitleTable)

/-- The level that has been computed, and the two maxima. -/
def keepMax (u : LvInfo) (lv : Nat) : LvInfo :=
  { u with
    lv := lv
    lvMax := (raiseMax lv u.exp u.lvMax u.expMax).1
    expMax := (raiseMax lv u.exp u.lvMax u.expMax).2
    lvSeasonMax := (raiseMax lv u.exp u.lvSeasonMax u.expSeasonMax).1
    expSeasonMax := (raiseMax lv u.exp u.lvSeasonMax u.expSeasonMax).2 }

/-- `UpdateTianxiaDiyi`; it raises at a maximum that is `nil`. -/
def UpdateTianxiaDiyi (u : LvInfo) (rank : Option Nat) : LvInfo :=
  if u.lv ≠ 38 then u
  else if ¬rank.any fun rank => rank ≤ 100 ∧ rank > 0 then u
  else
    let u := { u with lv := 39 }
    match u.lvMax with
    | none => u
    | some lvMax =>
        let u := { u with lvMax := some (if lvMax < 39 then 39 else lvMax) }
        match u.lvSeasonMax with
        | none => u
        | some lvSeasonMax =>
            { u with lvSeasonMax := some (if lvSeasonMax < 39 then 39 else lvSeasonMax) }

/-- The user as a new season leaves him, before his level is computed. -/
def reset (u : LvInfo) (sDataOld : TitleRow) (seasonId : Nat) : LvInfo :=
  let sData := cfg.row sDataOld.end_lv
  { u with
    seasonId := some seasonId
    lv := (sData.map TitleRow.level).getD 1
    exp := (sData.map TitleRow.exp).getD 0
    lvSeasonMax := some 1
    expSeasonMax := some 0 }

end LvInfo

/-- One user, and the seasons of all of them. -/
structure TitleUser where
  id : Nat
  userInfo : LvInfo
  server : SeasonServer

inductive TitleEvent
  | addExp (num : Int) (a : Answers)
  | computeLv (a : Answers)
  | userOnline (a : Answers)
  | checkTitleOver (seasonId : Nat) (rankUser : Bool) (a : Answers) (rank : Option Nat)
  | updateUserExp (id : Nat) (exp : Int)
  | addSeasonData

def valVersionKey : String := "2021.12.31 01:48"

namespace TitleUser
variable (cfg : TitleTable)

def computeLv (s : TitleUser) (a : Answers) : TitleUser :=
  match cfg.baseLv s.userInfo.exp s.userInfo.lv with
  | none => s
  | some (.error lv) => { s with userInfo := { s.userInfo with lv := lv } }
  | some (.ok lv) =>
      let asked := lv ≥ cfg.maxLevel - 1 ∧ a.season
      let updated := s.server.UpdateUserExp s.id s.userInfo.exp
      let lv := cfg.rankLv lv (if asked then some updated.2 else none)
      { s with
        userInfo := (s.userInfo.keepMax lv).UpdateTianxiaDiyi a.rank
        server := if asked then updated.1 else s.server }

/-- The level whose rewards close a season: the highest only with a place on the list. -/
def oldLv (s : TitleUser) (rankUser : Bool) : Nat :=
  match s.userInfo.seasonId with
  | none => s.userInfo.lv
  | some oldSeasonId =>
      if s.userInfo.lv ≥ cfg.maxLevel ∧ rankUser ∧ ¬s.server.GetRankUser oldSeasonId s.id then
        s.userInfo.lv - 1
      else s.userInfo.lv

def checkTitleOver (s : TitleUser) (seasonId : Nat) (rankUser : Bool) (a : Answers)
    (rank : Option Nat) : TitleUser :=
  if s.userInfo.seasonId = none ∧ s.userInfo.lv ≤ 1 then
    { s with userInfo :=
        { s.userInfo with seasonId := some seasonId }.UpdateTianxiaDiyi rank }
  else if s.userInfo.seasonId ≠ some seasonId then
    match cfg.row (s.oldLv cfg rankUser) with
    | none => s
    | some sDataOld =>
        let s := { s with userInfo := s.userInfo.reset cfg sDataOld seasonId }.computeLv cfg a
        { s with userInfo := s.userInfo.UpdateTianxiaDiyi rank }
  else { s with userInfo := s.userInfo.UpdateTianxiaDiyi rank }

/-- A user as he comes online, but for the season. -/
def userOnline (s : TitleUser) (a : Answers) : TitleUser :=
  let s := if s.userInfo.lv ≤ 0 then { s with userInfo := { s.userInfo with lv := 1 } } else s
  if s.userInfo.valVersionKey ≠ some Agent.valVersionKey then
    let s := { s with
      userInfo := { s.userInfo with valVersionKey := some Agent.valVersionKey } }
    if s.userInfo.exp > 0 then
      { s with userInfo := { s.userInfo with exp := s.userInfo.exp * 4 } }.computeLv cfg a
    else s
  else s

def step (s : TitleUser) (e : TitleEvent) : Option TitleUser :=
  match e with
  | .addExp num a =>
      if s.userInfo.exp + num < 0 then none
      else
        some ({ s with userInfo := { s.userInfo with exp := s.userInfo.exp + num } }.computeLv cfg a)
  | .computeLv a => some (s.computeLv cfg a)
  | .userOnline a => some (s.userOnline cfg a)
  | .checkTitleOver seasonId rankUser a rank => some (s.checkTitleOver cfg seasonId rankUser a rank)
  | .updateUserExp id exp => some { s with server := (s.server.UpdateUserExp id exp).1 }
  | .addSeasonData => some { s with server := s.server.addSeasonData }

/-- A new user, in the first season. -/
def start (id : Nat) : TitleUser :=
  ⟨id, ⟨1, 0, none, none, none, none, none, none⟩, ⟨1, fun _ => []⟩⟩

end TitleUser

namespace TitleTable

/-- The thresholds rise from zero. -/
structure Rising (cfg : TitleTable) : Prop where
  increasing : ∀ (i j : Nat) (a b : TitleRow), i < j → cfg.rows[i]? = some a →
    cfg.rows[j]? = some b → a.exp < b.exp
  zero : ∃ c, cfg.rows[0]? = some c ∧ c.exp = 0

/-- The largest level whose threshold is at most the experience. -/
def IsLevel (cfg : TitleTable) (exp : Int) (lv : Nat) : Prop :=
  (∃ c ∈ cfg.rows, c.level = lv ∧ c.exp ≤ exp) ∧ ∀ c ∈ cfg.rows, c.exp ≤ exp → c.level ≤ lv

section Rows
variable {cfg : TitleTable} {c d : TitleRow} {i lv : Nat} {exp : Int}

theorem row_succ (lv : Nat) : cfg.row (lv + 1) = cfg.rows[lv]? := find_numbered cfg.levels lv

theorem row_some (found : cfg.row lv = some c) : c ∈ cfg.rows ∧ c.level = lv :=
  (find_keyed (numbered_nodup cfg.levels)).mp found

theorem level_mem (mem : c ∈ cfg.rows) : 1 ≤ c.level ∧ c.level ≤ cfg.maxLevel := by
  obtain ⟨i, row⟩ := List.mem_iff_getElem?.mp mem
  have level := numbered_key cfg.levels row
  have short := (List.getElem?_eq_some_iff.mp row).1
  rw [maxLevel]
  omega

theorem row_of_level (positive : 1 ≤ lv) (short : lv ≤ cfg.maxLevel) :
    ∃ c ∈ cfg.rows, c.level = lv := by
  have here : lv - 1 < cfg.rows.length := by
    rw [maxLevel] at short
    omega
  have level := numbered_key cfg.levels (List.getElem?_eq_getElem here)
  exact ⟨_, List.getElem_mem here, by omega⟩

theorem exp_lt (rising : cfg.Rising) (memC : c ∈ cfg.rows) (memD : d ∈ cfg.rows)
    (less : c.level < d.level) : c.exp < d.exp := by
  obtain ⟨i, rowC⟩ := List.mem_iff_getElem?.mp memC
  obtain ⟨j, rowD⟩ := List.mem_iff_getElem?.mp memD
  have levelC := numbered_key cfg.levels rowC
  have levelD := numbered_key cfg.levels rowD
  exact rising.increasing i j c d (by omega) rowC rowD

theorem exp_le (rising : cfg.Rising) (memC : c ∈ cfg.rows) (memD : d ∈ cfg.rows)
    (le : c.level ≤ d.level) : c.exp ≤ d.exp := by
  obtain less | same := lt_or_eq_of_le le
  · exact (exp_lt rising memC memD less).le
  · rw [List.inj_on_of_nodup_map (numbered_nodup cfg.levels) memC memD same]

theorem exp_nonneg (rising : cfg.Rising) (mem : c ∈ cfg.rows) : 0 ≤ c.exp := by
  obtain ⟨first, row, zero⟩ := rising.zero
  have level := numbered_key cfg.levels row
  exact zero ▸ exp_le rising (List.mem_of_getElem? row) mem (level ▸ (level_mem mem).1)

/-- The experience lies between a threshold and the next. -/
theorem isLevel_between (rising : cfg.Rising) (mem : c ∈ cfg.rows) (reached : c.exp ≤ exp)
    (next : ∀ d, cfg.rows[c.level]? = some d → exp < d.exp) : cfg.IsLevel exp c.level := by
  refine ⟨⟨c, mem, rfl, reached⟩, fun d memD reachedD => ?_⟩
  by_contra above
  obtain ⟨j, row⟩ := List.mem_iff_getElem?.mp memD
  have level := numbered_key cfg.levels row
  have short := (List.getElem?_eq_some_iff.mp row).1
  have here : c.level < cfg.rows.length := by omega
  have before := next _ (List.getElem?_eq_getElem here)
  have levelNext := numbered_key cfg.levels (List.getElem?_eq_getElem here)
  have between := exp_le rising (List.getElem_mem here) memD (by omega)
  omega

theorem lowerLv_level (rising : cfg.Rising) (nonneg : 0 ≤ exp) (positive : 1 ≤ i)
    (short : i ≤ cfg.rows.length) (next : ∀ d, cfg.rows[i]? = some d → exp < d.exp) :
    ∃ l, cfg.lowerLv exp lv i = .ok l ∧ cfg.IsLevel exp l := by
  induction i generalizing lv with
  | zero => omega
  | succ i ih =>
      have here : i < cfg.rows.length := by omega
      have row := List.getElem?_eq_getElem here
      have level := numbered_key cfg.levels row
      have mem := List.getElem_mem here
      rw [lowerLv, row_succ, row]
      generalize cfg.rows[i] = sData at row level mem
      simp only
      by_cases reached : exp ≥ sData.exp
      · rw [if_pos reached]
        exact ⟨_, rfl, isLevel_between rising mem reached (level ▸ next)⟩
      · rw [if_neg reached]
        -- the first threshold is zero, so there are levels left
        have left : 1 ≤ i := by
          by_contra none
          obtain ⟨first, rowFirst, zero⟩ := rising.zero
          obtain rfl : i = 0 := by omega
          obtain rfl := Option.some.inj (row.symm.trans rowFirst)
          omega
        refine ih left (by omega) fun d rowD => ?_
        obtain rfl := Option.some.inj (row.symm.trans rowD)
        omega

theorem raiseLv_level (rising : cfg.Rising) (mem : c ∈ cfg.rows) (reached : c.exp ≤ exp) (n : Nat)
    (left : n = cfg.maxLevel - c.level) : cfg.IsLevel exp (cfg.raiseLv exp c.level n) := by
  induction n generalizing c with
  | zero =>
      refine isLevel_between rising mem reached fun d rowD => ?_
      have short := (List.getElem?_eq_some_iff.mp rowD).1
      rw [maxLevel] at left
      omega
  | succ n ih =>
      have here : c.level < cfg.rows.length := by
        rw [maxLevel] at left
        omega
      have row := List.getElem?_eq_getElem here
      have level := numbered_key cfg.levels row
      have mem' := List.getElem_mem here
      rw [raiseLv, row_succ, row]
      generalize cfg.rows[c.level] = sData at row level mem'
      simp only
      by_cases below : exp < sData.exp
      · rw [if_pos below]
        refine isLevel_between rising mem reached fun d rowD => ?_
        obtain rfl := Option.some.inj (row.symm.trans rowD)
        exact below
      · rw [if_neg below]
        exact ih mem' (by omega) (by omega)

/-- Whatever level of the table he was on, the user gets the one of his experience. -/
theorem baseLv_level (rising : cfg.Rising) (nonneg : 0 ≤ exp) (found : cfg.row lv = some c) :
    ∃ l, cfg.baseLv exp lv = some (.ok l) ∧ cfg.IsLevel exp l := by
  obtain ⟨mem, level⟩ := row_some found
  obtain ⟨positive, short⟩ := level_mem mem
  have next : ∀ d, cfg.rows[lv]? = some d → c.exp < d.exp := fun d rowD => by
    have levelD := numbered_key cfg.levels rowD
    exact exp_lt rising mem (List.mem_of_getElem? rowD) (by omega)
  rw [baseLv, found]
  simp only
  by_cases below : exp < c.exp
  · rw [if_pos below]
    obtain ⟨l, lower, isLevel⟩ := @lowerLv_level cfg lv lv exp rising nonneg (level ▸ positive)
      (level ▸ short) fun d rowD => below.trans (next d rowD)
    exact ⟨l, congrArg some lower, isLevel⟩
  · rw [if_neg below]
    by_cases above : exp > c.exp
    · rw [if_pos above]
      subst level
      exact ⟨_, rfl, raiseLv_level rising mem above.le _ rfl⟩
    · rw [if_neg above]
      have same : exp = c.exp := by omega
      subst level same
      exact ⟨_, rfl, isLevel_between rising mem (le_refl _) next⟩

end Rows

end TitleTable

/-- A maximum holds the level, and every level below the highest that its experience is worth. A
user starts on the first level, so that is his maximum while there is none. -/
structure Covered (cfg : TitleTable) (lv : Nat) (lvMax : Option Nat) (expMax : Option Int) :
    Prop where
  positive : 1 ≤ lvMax.getD 1
  here : lv ≤ lvMax.getD 1
  worth : ∀ e, expMax = some e → ∀ c ∈ cfg.rows, c.exp ≤ e → c.level < cfg.maxLevel →
    c.level ≤ lvMax.getD 1

/-- A maximum that a computed highest level is recorded in: the experience is above that of the
maximum, or the maximum is the highest level already. -/
def Open (cfg : TitleTable) (exp : Int) (lvMax : Option Nat) (expMax : Option Int) : Prop :=
  (∀ e ∈ expMax, e < exp) ∨ cfg.maxLevel ≤ lvMax.getD 1

namespace TitleUser

/-- The highest level is given to a user who is worth the one below: by the list of the season,
or, where that cannot be reached, by his experience. -/
def Tops (cfg : TitleTable) (s : TitleUser) (a : Answers) : Prop :=
  cfg.row s.userInfo.lv ≠ none ∧
    (∀ c ∈ cfg.rows, c.level + 1 = cfg.maxLevel → c.exp ≤ s.userInfo.exp) ∧
    (a.season = true → (s.server.UpdateUserExp s.id s.userInfo.exp).2 = true) ∧
    (a.season = false → ∀ c ∈ cfg.rows, c.level = cfg.maxLevel → c.exp ≤ s.userInfo.exp)

/-- The highest level is given only where both maxima record it. -/
def Recording (cfg : TitleTable) (s : TitleUser) (a : Answers) : Prop :=
  s.Tops cfg a → Open cfg s.userInfo.exp s.userInfo.lvMax s.userInfo.expMax ∧
    Open cfg s.userInfo.exp s.userInfo.lvSeasonMax s.userInfo.expSeasonMax

/-- Every level that an event computes is recorded, if it is the highest. -/
def recording (cfg : TitleTable) (s : TitleUser) (e : TitleEvent) : Prop :=
  match e with
  | .addExp num a =>
      Recording cfg { s with userInfo := { s.userInfo with exp := s.userInfo.exp + num } } a
  | .computeLv a => Recording cfg s a
  | .userOnline a =>
      s.userInfo.valVersionKey ≠ some Agent.valVersionKey → 0 < s.userInfo.exp →
        Recording cfg { s with userInfo :=
          { s.userInfo with lv := max s.userInfo.lv 1, exp := s.userInfo.exp * 4 } } a
  | .checkTitleOver seasonId rankUser a _ =>
      ¬(s.userInfo.seasonId = none ∧ s.userInfo.lv ≤ 1) → s.userInfo.seasonId ≠ some seasonId →
        ∀ sDataOld ∈ cfg.row (s.oldLv cfg rankUser),
          Recording cfg { s with userInfo := s.userInfo.reset cfg sDataOld seasonId } a
  | .updateUserExp _ _ | .addSeasonData => True

instance open_decidable (cfg : TitleTable) (exp : Int) (lvMax : Option Nat) (expMax : Option Int) :
    Decidable (Open cfg exp lvMax expMax) :=
  inferInstanceAs (Decidable ((∀ e ∈ expMax, e < exp) ∨ _))

instance tops_decidable (cfg : TitleTable) (s : TitleUser) (a : Answers) : Decidable (s.Tops cfg a) :=
  inferInstanceAs (Decidable (_ ≠ none ∧ (∀ c ∈ cfg.rows, _) ∧ (_ → _) ∧
    (_ → ∀ c ∈ cfg.rows, c.level = cfg.maxLevel → c.exp ≤ s.userInfo.exp)))

instance recording_decidable (cfg : TitleTable) (s : TitleUser) (a : Answers) :
    Decidable (s.Recording cfg a) :=
  inferInstanceAs (Decidable (_ → _ ∧ _))

instance recordingStep_decidable (cfg : TitleTable) (s : TitleUser) :
    (e : TitleEvent) → Decidable (recording cfg s e)
  | .addExp _ a => recording_decidable cfg _ a
  | .computeLv a => recording_decidable cfg _ a
  | .userOnline a => inferInstanceAs (Decidable (_ → _ → Recording cfg _ a))
  | .checkTitleOver _ rankUser a _ => inferInstanceAs (Decidable (_ → _ →
      ∀ sDataOld ∈ cfg.row (s.oldLv cfg rankUser), Recording cfg _ a))
  | .updateUserExp _ _ => inferInstanceAs (Decidable True)
  | .addSeasonData => inferInstanceAs (Decidable True)

/-- Both maxima hold. -/
structure TitleInv (cfg : TitleTable) (u : LvInfo) : Prop where
  exp : 0 ≤ u.exp
  ever : Covered cfg u.lv u.lvMax u.expMax
  season : Covered cfg u.lv u.lvSeasonMax u.expSeasonMax

/-- A level computed from an experience and an answer of the season. -/
structure Computed (cfg : TitleTable) (exp : Int) (ret : Option Bool) (lv : Nat) : Prop where
  reached : ∀ c ∈ cfg.rows, c.exp ≤ exp → c.level < cfg.maxLevel → c.level ≤ lv
  worth : lv = 0 ∨ ∃ c ∈ cfg.rows, c.level = lv ∧ (c.exp ≤ exp ∨ c.level = cfg.maxLevel)
  below : lv = cfg.maxLevel → ∀ c ∈ cfg.rows, c.level + 1 = cfg.maxLevel → c.exp ≤ exp
  top : lv = cfg.maxLevel →
    ret = some true ∨ ret = none ∧ ∀ c ∈ cfg.rows, c.level = cfg.maxLevel → c.exp ≤ exp

section Maxima
variable {cfg : TitleTable} {s s' : TitleUser} {u : LvInfo} {a : Answers} {e : TitleEvent}
  {es : List TitleEvent} {ret : Option Bool} {lv l id : Nat} {exp : Int} {lvMax : Option Nat} {expMax : Option Int}
  {rank : Option Nat}

/-- A maximum after a level has been computed. -/
theorem covered_raiseMax (positive : 1 ≤ lvMax.getD 1) (old : ∀ e, expMax = some e → ∀ c ∈ cfg.rows, c.exp ≤ e →
      c.level < cfg.maxLevel → c.level ≤ lvMax.getD 1) (computed : Computed cfg exp ret l)
    (top : l = cfg.maxLevel → Open cfg exp lvMax expMax) :
    Covered cfg l (raiseMax l exp lvMax expMax).1 (raiseMax l exp lvMax expMax).2 := by
  rw [raiseMax]
  by_cases new : expMax.all fun e => exp > e
  · rw [if_pos new]
    have le : l ≤ (if lvMax.getD 0 < l then some l else lvMax).getD 1 := by
      cases lvMax with
      | none =>
          rw [Option.getD_none]
          split
          · exact le_refl l
          · omega
      | some m =>
          split
          · exact le_refl l
          · rename_i high
            exact not_lt.mp high
    have positive' : 1 ≤ (if lvMax.getD 0 < l then some l else lvMax).getD 1 := by
      split
      · rename_i low
        exact (Nat.zero_le _).trans_lt low
      · exact positive
    refine ⟨positive', le, fun e same c mem reached' below => ?_⟩
    obtain rfl := Option.some.inj same
    exact (computed.reached c mem reached' below).trans le
  · rw [if_neg new]
    refine ⟨positive, ?_, old⟩
    cases same : expMax with
    | none => exact absurd (same ▸ rfl) new
    | some e =>
        have le : exp ≤ e := by simpa [same] using new
        have high : l = cfg.maxLevel → l ≤ lvMax.getD 1 := fun here => by
          obtain above | enough := top here
          · exact absurd (above e same) (not_lt.mpr le)
          · exact here ▸ enough
        show l ≤ lvMax.getD 1
        obtain zero | ⟨c, mem, level, reached' | highest⟩ := computed.worth
        · omega
        · by_cases here : l = cfg.maxLevel
          · exact high here
          · have short := (TitleTable.level_mem mem).2
            have low := old e same c mem (reached'.trans le) (by omega)
            omega
        · exact high (level ▸ highest)

theorem computed_rankLv (rising : cfg.Rising) (level : cfg.IsLevel exp l) (ret : Option Bool) :
    Computed cfg exp ret (cfg.rankLv l (if l ≥ cfg.maxLevel - 1 then ret else none)) := by
  obtain ⟨⟨row, mem, here, reached⟩, above⟩ := level
  obtain ⟨positive, short⟩ := TitleTable.level_mem mem
  have below : ∀ c ∈ cfg.rows, c.level ≤ l → c.exp ≤ exp := fun c memC le =>
    (TitleTable.exp_le rising memC mem (here ▸ le)).trans reached
  have kept : (l = cfg.maxLevel → ret = none) → Computed cfg exp ret l := fun unasked =>
    ⟨fun c memC reachedC _ => above c memC reachedC, .inr ⟨row, mem, here, .inl reached⟩,
      fun top c memC levelC => below c memC (by omega),
      fun top => .inr ⟨unasked top, fun c memC levelC => below c memC (by omega)⟩⟩
  by_cases high : l ≥ cfg.maxLevel - 1
  · rw [if_pos high]
    cases ret with
    | none => exact kept fun _ => rfl
    | some ret =>
        cases ret with
        | true =>
            obtain ⟨c, memC, levelC⟩ :=
              TitleTable.row_of_level (positive.trans short) (le_refl cfg.maxLevel)
            exact ⟨fun d _ _ less => less.le, .inr ⟨c, memC, levelC, .inr levelC⟩,
              fun _ d memD levelD => below d memD (by omega), fun _ => .inl rfl⟩
        | false =>
            have lowered : cfg.rankLv l (some false) = cfg.maxLevel - 1 := rfl
            rw [lowered]
            refine ⟨fun d _ _ less => by omega, ?_, fun top => by omega, fun top => by omega⟩
            by_cases single : cfg.maxLevel - 1 = 0
            · exact .inl single
            · obtain ⟨c, memC, levelC⟩ := TitleTable.row_of_level
                (Nat.pos_of_ne_zero single) (Nat.sub_le cfg.maxLevel 1)
              exact .inr ⟨c, memC, levelC, .inl (below c memC (by omega))⟩
  · rw [if_neg high]
    exact kept fun top => by omega

theorem inv_UpdateTianxiaDiyi (inv : TitleInv cfg u) (rank : Option Nat) :
    TitleInv cfg (u.UpdateTianxiaDiyi rank) := by
  rw [LvInfo.UpdateTianxiaDiyi]
  by_cases other : u.lv ≠ 38
  · rw [if_pos other]
    exact inv
  rw [if_neg other]
  split
  · exact inv
  · have ever := inv.ever.here
    have season := inv.season.here
    cases lvMax : u.lvMax with
    | none =>
        rw [lvMax, Option.getD_none] at ever
        omega
    | some m =>
        cases lvSeasonMax : u.lvSeasonMax with
        | none =>
            rw [lvSeasonMax, Option.getD_none] at season
            omega
        | some n =>
            -- a maximum that is raised holds what it held before
            have raised : ∀ m, m ≤ (if m < 39 then 39 else m) ∧ 39 ≤ (if m < 39 then 39 else m) :=
              fun m => by split <;> omega
            have least : ∀ m, 1 ≤ (if m < 39 then 39 else m) := fun m =>
              (Nat.succ_le_succ (Nat.zero_le 38)).trans (raised m).2
            refine ⟨inv.exp, ⟨least m, (raised m).2, fun e same c mem reached below => ?_⟩,
              ⟨least n, (raised n).2, fun e same c mem reached below => ?_⟩⟩
            · have old := inv.ever.worth e same c mem reached below
              rw [lvMax] at old
              exact old.trans (raised m).1
            · have old := inv.season.worth e same c mem reached below
              rw [lvSeasonMax] at old
              exact old.trans (raised n).1

/-- What `computeLv` does on a level of the table. -/
theorem computeLv_listed (rising : cfg.Rising) (nonneg : 0 ≤ s.userInfo.exp)
    (listed : cfg.row s.userInfo.lv ≠ none) :
    ∃ l, cfg.IsLevel s.userInfo.exp l ∧
      (s.computeLv cfg a).userInfo = (s.userInfo.keepMax (cfg.rankLv l (if l ≥ cfg.maxLevel - 1 then
        (if a.season then some (s.server.UpdateUserExp s.id s.userInfo.exp).2 else none)
        else none))).UpdateTianxiaDiyi a.rank := by
  obtain ⟨c, found⟩ := Option.ne_none_iff_exists'.mp listed
  obtain ⟨l, base, level⟩ := TitleTable.baseLv_level rising nonneg found
  refine ⟨l, level, ?_⟩
  rw [computeLv, base]
  by_cases high : l ≥ cfg.maxLevel - 1 <;> by_cases season : a.season <;> simp [high, season]

theorem computeLv_unlisted (listed : cfg.row s.userInfo.lv = none) : s.computeLv cfg a = s := by
  rw [computeLv, TitleTable.baseLv, listed]

/-- The level that is computed is recorded in both maxima. -/
theorem inv_computeLv (rising : cfg.Rising) (nonneg : 0 ≤ s.userInfo.exp)
    (unlisted : cfg.row s.userInfo.lv = none → TitleInv cfg s.userInfo)
    (ever : Covered cfg 0 s.userInfo.lvMax s.userInfo.expMax)
    (season : Covered cfg 0 s.userInfo.lvSeasonMax s.userInfo.expSeasonMax)
    (recorded : s.Recording cfg a) : TitleInv cfg (s.computeLv cfg a).userInfo := by
  by_cases listed : cfg.row s.userInfo.lv = none
  · rw [computeLv_unlisted listed]
    exact unlisted listed
  · obtain ⟨l, level, same⟩ := @computeLv_listed cfg s a rising nonneg listed
    have computed := computed_rankLv rising level
      (if a.season then some (s.server.UpdateUserExp s.id s.userInfo.exp).2 else none)
    rw [same]
    generalize cfg.rankLv l _ = lv at computed
    have top : lv = cfg.maxLevel → Open cfg s.userInfo.exp s.userInfo.lvMax s.userInfo.expMax ∧
        Open cfg s.userInfo.exp s.userInfo.lvSeasonMax s.userInfo.expSeasonMax := fun here => by
      refine recorded ⟨listed, computed.below here, fun season => ?_, fun season => ?_⟩
      · rw [if_pos season] at computed
        obtain answer | ⟨none, _⟩ := computed.top here
        · exact Option.some.inj answer
        · cases none
      · rw [if_neg (Bool.not_eq_true _ ▸ season)] at computed
        obtain answer | ⟨_, worth⟩ := computed.top here
        · cases answer
        · exact worth
    have kept : TitleInv cfg (s.userInfo.keepMax lv) :=
      ⟨nonneg, covered_raiseMax ever.positive ever.worth computed fun here => (top here).1,
        covered_raiseMax season.positive season.worth computed fun here => (top here).2⟩
    exact inv_UpdateTianxiaDiyi kept a.rank

theorem covered_zero (covered : Covered cfg lv lvMax expMax) : Covered cfg 0 lvMax expMax :=
  ⟨covered.positive, Nat.zero_le _, covered.worth⟩

theorem isLevel_unique (level : cfg.IsLevel exp lv) (level' : cfg.IsLevel exp l) : lv = l := by
  obtain ⟨⟨c, mem, here, reached⟩, above⟩ := level
  obtain ⟨⟨d, mem', here', reached'⟩, above'⟩ := level'
  exact le_antisymm (here ▸ above' c mem reached) (here' ▸ above d mem' reached')

/-- A level that the season has no part in is the one of the experience. -/
theorem lv_computeLv (rising : cfg.Rising) (nonneg : 0 ≤ s.userInfo.exp)
    (listed : cfg.row s.userInfo.lv ≠ none) :
    ∃ l, cfg.IsLevel s.userInfo.exp l ∧
      (l + 1 < cfg.maxLevel → l ≠ 38 → (s.computeLv cfg a).userInfo.lv = l) := by
  obtain ⟨l, level, same⟩ := @computeLv_listed cfg s a rising nonneg listed
  refine ⟨l, level, fun low other => ?_⟩
  have unasked : ¬l ≥ cfg.maxLevel - 1 := by omega
  have apart : (s.userInfo.keepMax l).lv ≠ 38 := other
  rw [same, if_neg unasked, TitleTable.rankLv, LvInfo.UpdateTianxiaDiyi, if_pos apart]
  rfl

theorem inv_checkTitleOver (rising : cfg.Rising) (inv : TitleInv cfg s.userInfo) (seasonId : Nat)
    (rankUser : Bool) (recorded : recording cfg s (.checkTitleOver seasonId rankUser a rank)) :
    TitleInv cfg (s.checkTitleOver cfg seasonId rankUser a rank).userInfo := by
  rw [checkTitleOver]
  by_cases first : s.userInfo.seasonId = none ∧ s.userInfo.lv ≤ 1
  · rw [if_pos first]
    have same : TitleInv cfg { s.userInfo with seasonId := some seasonId } :=
      ⟨inv.exp, inv.ever, inv.season⟩
    exact inv_UpdateTianxiaDiyi same rank
  rw [if_neg first]
  by_cases other : s.userInfo.seasonId ≠ some seasonId
  · rw [if_pos other]
    cases old : cfg.row (s.oldLv cfg rankUser) with
    | none => exact inv
    | some sDataOld =>
        have recorded' := recorded first other sDataOld old
        obtain ⟨start, rowStart, zero⟩ := rising.zero
        have levelStart := numbered_key cfg.levels rowStart
        have memStart := List.mem_of_getElem? rowStart
        have nonneg : 0 ≤ (s.userInfo.reset cfg sDataOld seasonId).exp := by
          show 0 ≤ ((cfg.row sDataOld.end_lv).map TitleRow.exp).getD 0
          cases found : cfg.row sDataOld.end_lv with
          | none => exact le_refl 0
          | some sData => exact TitleTable.exp_nonneg rising (TitleTable.row_some found).1
        have listed : cfg.row (s.userInfo.reset cfg sDataOld seasonId).lv ≠ none := by
          show cfg.row (((cfg.row sDataOld.end_lv).map TitleRow.level).getD 1) ≠ none
          cases found : cfg.row sDataOld.end_lv with
          | none =>
              have first := @TitleTable.row_succ cfg 0
              rw [rowStart] at first
              exact fun none => nomatch first.symm.trans none
          | some sData =>
              rw [Option.map_some, Option.getD_some, (TitleTable.row_some found).2, found]
              exact Option.some_ne_none sData
        -- the new season begins on the first level, which is all that no experience is worth
        have season : Covered cfg 0 (some 1) (some 0) := by
          refine ⟨le_refl 1, Nat.zero_le _, fun e same c mem reached _ => ?_⟩
          obtain rfl := Option.some.inj same
          by_contra above
          have more := TitleTable.exp_lt rising memStart mem (by
            rw [Option.getD_some] at above
            omega)
          omega
        apply inv_UpdateTianxiaDiyi
        exact inv_computeLv rising nonneg (fun none => absurd none listed) (covered_zero inv.ever) season
          recorded'
  · rw [if_neg other]
    exact inv_UpdateTianxiaDiyi inv rank

theorem inv_userOnline (rising : cfg.Rising) (inv : TitleInv cfg s.userInfo)
    (recorded : recording cfg s (.userOnline a)) : TitleInv cfg (s.userOnline cfg a).userInfo := by
  have lv : (if s.userInfo.lv ≤ 0 then
      { s with userInfo := { s.userInfo with lv := 1 } } else s) =
      { s with userInfo := { s.userInfo with lv := max s.userInfo.lv 1 } } := by
    split
    · rename_i zero
      rw [max_eq_right (zero.trans (Nat.zero_le 1))]
    · rename_i positive
      rw [max_eq_left (Nat.pos_of_ne_zero fun zero => positive zero.le)]
  have online : TitleInv cfg { s.userInfo with lv := max s.userInfo.lv 1 } :=
    ⟨inv.exp, ⟨inv.ever.positive, max_le inv.ever.here inv.ever.positive, inv.ever.worth⟩,
      ⟨inv.season.positive, max_le inv.season.here inv.season.positive, inv.season.worth⟩⟩
  rw [userOnline, lv]
  simp only
  by_cases older : s.userInfo.valVersionKey ≠ some Agent.valVersionKey
  · rw [if_pos older]
    by_cases some_ : s.userInfo.exp > 0
    · rw [if_pos some_]
      have more : 0 ≤ s.userInfo.exp * 4 := Int.mul_nonneg inv.exp (by decide)
      exact inv_computeLv rising more (fun _ => ⟨more, online.ever, online.season⟩) (covered_zero online.ever)
        (covered_zero online.season) (recorded older some_)
    · rw [if_neg some_]
      exact ⟨online.exp, online.ever, online.season⟩
  · rw [if_neg older]
    exact online

theorem inv_lvStep (rising : cfg.Rising) (inv : TitleInv cfg s.userInfo) (recorded : recording cfg s e)
    (moved : s.step cfg e = some s') : TitleInv cfg s'.userInfo := by
  cases e with
  | addExp num a =>
      rw [step] at moved
      split at moved
      · cases moved
      · rename_i enough
        obtain rfl := Option.some.inj moved
        have nonneg : 0 ≤ s.userInfo.exp + num := not_lt.mp enough
        exact inv_computeLv rising nonneg (fun _ => ⟨nonneg, inv.ever, inv.season⟩) (covered_zero inv.ever)
          (covered_zero inv.season) recorded
  | computeLv a =>
      obtain rfl := Option.some.inj moved
      exact inv_computeLv rising inv.exp (fun _ => inv) (covered_zero inv.ever) (covered_zero inv.season) recorded
  | userOnline a =>
      obtain rfl := Option.some.inj moved
      exact inv_userOnline rising inv recorded
  | checkTitleOver seasonId rankUser a rank =>
      obtain rfl := Option.some.inj moved
      exact inv_checkTitleOver rising inv seasonId rankUser recorded
  | updateUserExp id exp =>
      obtain rfl := Option.some.inj moved
      exact inv
  | addSeasonData =>
      obtain rfl := Option.some.inj moved
      exact inv

theorem inv_lvStart : TitleInv cfg (start id).userInfo :=
  ⟨le_refl 0, ⟨le_refl 1, le_refl 1, nofun⟩, ⟨le_refl 1, le_refl 1, nofun⟩⟩

/-- The level is the one of the experience where the season has no part in it, and in runs that
record every highest level neither maximum is ever below the level. -/
theorem run_lvMax (rising : cfg.Rising) :
    (∀ (s : TitleUser) (a : Answers), 0 ≤ s.userInfo.exp → cfg.row s.userInfo.lv ≠ none →
      ∃ l, cfg.IsLevel s.userInfo.exp l ∧
        (l + 1 < cfg.maxLevel → l ≠ 38 → (s.computeLv cfg a).userInfo.lv = l)) ∧
      ∀ (id : Nat) (es : List TitleEvent) (s : TitleUser),
        Run (step cfg) (recording cfg) (start id) es s →
        s.userInfo.lv ≤ s.userInfo.lvMax.getD 1 ∧ s.userInfo.lv ≤ s.userInfo.lvSeasonMax.getD 1 := by
  refine ⟨fun s a nonneg listed => lv_computeLv rising nonneg listed, fun id es s run => ?_⟩
  have inv := run.invariant (fun s => TitleInv cfg s.userInfo) inv_lvStart
    fun _ _ _ inv recorded moved => inv_lvStep rising inv recorded moved
  exact ⟨inv.ever.here, inv.season.here⟩

/-- Three levels, each a hundred apart. -/
def titleRows : List TitleRow :=
  [⟨1, 0, 1, [], []⟩, ⟨2, 100, 1, [⟨115001, 50⟩], []⟩, ⟨3, 200, 2, [⟨205001, 1⟩], [⟨10001, 10⟩]⟩]

def titleTable : TitleTable := ⟨titleRows, rfl⟩

theorem titleTable_rising : titleTable.Rising := by
  refine ⟨fun i j a b less rowA rowB => ?_, ⟨_, rfl, rfl⟩⟩
  have short : j < 3 := (List.getElem?_eq_some_iff.mp rowB).1
  interval_cases j <;> interval_cases i <;> simp_all [titleTable, titleRows] <;>
    subst rowA rowB <;> decide

/-- The top by experience, and a season later by the list. -/
def titleEvents : List TitleEvent :=
  [.checkTitleOver 1 true ⟨true, none⟩ none, .addExp 150 ⟨true, none⟩, .addSeasonData,
    .checkTitleOver 2 true ⟨true, none⟩ none, .addExp 180 ⟨true, none⟩]

theorem run_lvMax_events :
    ∃ s, Run (step titleTable) (recording titleTable) (start 7) titleEvents s ∧
      s.userInfo.lv = 3 ∧ s.userInfo.lv ≤ s.userInfo.lvMax.getD 1 ∧
        s.userInfo.lv ≤ s.userInfo.lvSeasonMax.getD 1 := by
  have run := @run_of_guarded _ _ (step titleTable) (recording titleTable) _ (start 7) titleEvents _
    rfl
  exact ⟨_, run, by decide, (run_lvMax titleTable_rising).2 _ _ _ run⟩

/-- A user of the second level, in a season whose list he is not on, gets onto the list of the
next season with less experience. -/
theorem run_lvMax_fails :
    ¬∀ cfg id es s, cfg.Rising → Run (step cfg) anyStep (start id) es s →
      s.userInfo.lv ≤ s.userInfo.lvMax.getD 1 := by
  intro all
  have run := @run_of_exec _ _ (step titleTable) (start 7)
    [.checkTitleOver 1 true ⟨true, none⟩ none, .updateUserExp 8 1000, .addExp 150 ⟨true, none⟩,
      .addSeasonData, .checkTitleOver 2 true ⟨true, none⟩ none, .addExp 120 ⟨true, none⟩] _ rfl
  exact absurd (all _ _ _ _ titleTable_rising run) (by decide)

end Maxima

end TitleUser

end HuluLandlord.Agent
