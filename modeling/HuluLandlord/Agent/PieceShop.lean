import HuluLandlord.Agent.RuneEquip

/-!
The awards for the experience books of a hero. Which awards have been taken is a list for each
hero, in memory once it has been loaded and in a row of its own. Heroes come and go, and books
add up, from outside. What is in an award is handed out elsewhere.
-/
namespace HuluLandlord.Agent
open Transition Table

structure PieceRow where
  heroid : HeroId
  takelist : List Int
  deriving DecidableEq, Repr

/-- An award, with what there was of the hero. -/
structure PieceGrant where
  heroid : HeroId
  awardid : Int
  notLimit : Bool
  ljExp : Int
  deriving DecidableEq, Repr

/-- `userhero` is `notLimit` of the heroes there are; a login forgets what is loaded. -/
structure PieceUser where
  mTakeInfo : List PieceRow
  isLoaded : Bool
  stored : List PieceRow
  userhero : HeroId → Option Bool
  ljexp : HeroId → Int
  grants : List PieceGrant

inductive PieceEvent
  | login
  | hero (heroid : HeroId) (notLimit : Option Bool)
  | expBook (heroid : HeroId) (ljexp : Int)
  | PieceShop_GetInfo
  | PieceShop_TakePiece (heroid : HeroId) (awardid : Int)
  deriving DecidableEq, Repr

/-- `cost_exp` of `cfg_cost_expbook_rewards`. -/
abbrev ExpReward := List Int

def Include_V (tb : List Int) (val : Option Int) : Bool := tb.any fun v => some v = val

namespace PieceUser
variable (cfg : ExpReward)

/-- The row of an award, which is counted from one. -/
def reward (awardid : Int) : Option Int :=
  if 1 ≤ awardid then cfg[(awardid - 1).toNat]? else none

def LoadData (s : PieceUser) : PieceUser :=
  if s.isLoaded then s else { s with mTakeInfo := s.stored, isLoaded := true }

/-- `IsTaked`, which leaves out what `Include_V` is to look for. -/
def IsTaked (mTakeInfo : List PieceRow) (heroid : HeroId) (_takeid : Int) : Bool :=
  mTakeInfo.any fun info => heroid = info.heroid && Include_V info.takelist none

def TakePiece (mTakeInfo : List PieceRow) (heroid : HeroId) (awardid : Int) :
    List PieceRow × Nat × Bool :=
  match mTakeInfo.findIdx? fun info => heroid = info.heroid with
  | some idx =>
      (mTakeInfo.modify idx fun info => { info with takelist := info.takelist ++ [awardid] },
        idx, false)
  | none => (mTakeInfo ++ [⟨heroid, [awardid]⟩], mTakeInfo.length, true)

/-- The row of the hero is added, or gets the list. -/
def save (stored : List PieceRow) (heroid : HeroId) (out : List PieceRow × Nat × Bool) :
    List PieceRow :=
  let takelist := ((out.1[out.2.1]?).map PieceRow.takelist).getD []
  if out.2.2 then stored ++ [⟨heroid, takelist⟩]
  else stored.map fun row => if row.heroid = heroid then { row with takelist := takelist } else row

def PieceShop_TakePiece (s : PieceUser) (heroid : HeroId) (awardid : Int) : PieceUser × RetVal :=
  if s.isLoaded = false then (s, .error_3)
  else match reward cfg awardid with
    | none => (s, .error_3)
    | some cost => match s.userhero heroid with
        | none => (s, .error_3)
        | some notLimit =>
            if notLimit = false then (s, .error_3)
            else if s.ljexp heroid < cost then (s, .error_3)
            else if IsTaked s.mTakeInfo heroid awardid then (s, .error_3)
            else
              let out := TakePiece s.mTakeInfo heroid awardid
              ({ s with
                mTakeInfo := out.1
                stored := save s.stored heroid out
                grants := s.grants ++ [⟨heroid, awardid, notLimit, s.ljexp heroid⟩] }, .succeed_1)

def step (s : PieceUser) : PieceEvent → Option PieceUser
  | .login => some { s with mTakeInfo := [], isLoaded := false }
  | .hero heroid notLimit =>
      some { s with userhero := Function.update s.userhero heroid notLimit }
  | .expBook heroid ljexp => some { s with ljexp := Function.update s.ljexp heroid ljexp }
  | .PieceShop_GetInfo => some s.LoadData
  | .PieceShop_TakePiece heroid awardid => some (s.PieceShop_TakePiece cfg heroid awardid).1

/-- A user who has taken nothing. -/
def start : PieceUser := ⟨[], false, [], fun _ => none, fun _ => 0, []⟩

/-- What the rows list of a hero. -/
def listed (rows : List PieceRow) (heroid : HeroId) : List Int :=
  (rows.filter fun row => row.heroid = heroid).flatMap PieceRow.takelist

end PieceUser

/-- No award twice, each earned, and the rows list what was granted. -/
structure Pieced (cfg : ExpReward) (s : PieceUser) : Prop where
  once : (s.grants.map fun g => (g.heroid, g.awardid)).Nodup
  earned : ∀ g ∈ s.grants, g.notLimit = true ∧
    ∃ cost, PieceUser.reward cfg g.awardid = some cost ∧ cost ≤ g.ljExp
  listed : ∀ heroid, PieceUser.listed s.stored heroid =
    (s.grants.filter fun g => g.heroid = heroid).map PieceGrant.awardid

namespace PieceUser
variable (cfg : ExpReward)

/-- `PieceShop_TakePiece` passes its checks. -/
def Takes (s : PieceUser) (heroid : HeroId) (awardid : Int) : Prop :=
  s.isLoaded = true ∧ ∃ cost, reward cfg awardid = some cost ∧
    s.userhero heroid = some true ∧ cost ≤ s.ljexp heroid ∧
    IsTaked s.mTakeInfo heroid awardid = false

/-- The award is not in the list of the hero yet. -/
def Untaken (s : PieceUser) : PieceEvent → Prop
  | .PieceShop_TakePiece heroid awardid => s.Takes cfg heroid awardid →
      ∀ info ∈ s.mTakeInfo, info.heroid = heroid → Include_V info.takelist (some awardid) = false
  | _ => True

/-- The memory, once loaded, is what is stored, a row a hero. -/
structure PieceInv (s : PieceUser) : Prop where
  keys : (s.stored.map PieceRow.heroid).Nodup
  loaded : s.isLoaded = true → s.mTakeInfo = s.stored

section Rows
variable {cfg : ExpReward} {rows : List PieceRow} {row : PieceRow} {heroid : HeroId} {awardid : Int}
  {s s' : PieceUser} {e : PieceEvent}

theorem TakePiece_cons (other : row.heroid ≠ heroid) :
    TakePiece (row :: rows) heroid awardid =
      (row :: (TakePiece rows heroid awardid).1, (TakePiece rows heroid awardid).2.1 + 1,
        (TakePiece rows heroid awardid).2.2) := by
  rw [TakePiece, TakePiece, List.findIdx?_cons, if_neg (by simpa using other.symm)]
  cases rows.findIdx? fun info => heroid = info.heroid with
  | none => rfl
  | some idx => rfl

theorem TakePiece_here : TakePiece (row :: rows) row.heroid awardid =
    ({ row with takelist := row.takelist ++ [awardid] } :: rows, 0, false) := by
  rw [TakePiece, List.findIdx?_cons, if_pos (decide_eq_true rfl)]
  rfl

theorem save_cons {out : List PieceRow × Nat × Bool} (other : row.heroid ≠ heroid) :
    save (row :: rows) heroid (row :: out.1, out.2.1 + 1, out.2.2) = row :: save rows heroid out := by
  rw [save, save]
  simp only [List.getElem?_cons_succ]
  split
  · rfl
  · rw [List.map_cons, if_neg other]

theorem map_others {f : PieceRow → PieceRow} (out : heroid ∉ rows.map PieceRow.heroid) :
    rows.map (fun row => if row.heroid = heroid then f row else row) = rows := by
  refine (List.map_congr_left fun row mem => if_neg ?_).trans (List.map_id' rows)
  rintro rfl
  exact out (List.mem_map_of_mem mem)

/-- What is saved is what is in memory. -/
theorem save_eq (keys : (rows.map PieceRow.heroid).Nodup) :
    save rows heroid (TakePiece rows heroid awardid) = (TakePiece rows heroid awardid).1 := by
  induction rows with
  | nil => rfl
  | cons row rows ih =>
      rw [List.map_cons, List.nodup_cons] at keys
      by_cases here : row.heroid = heroid
      · subst here
        rw [TakePiece_here, save]
        simp only [Bool.false_eq_true, if_false, List.map_cons, if_true, map_others keys.1]
        rfl
      · rw [TakePiece_cons here, save_cons here, ih keys.2]

theorem TakePiece_keys (keys : (rows.map PieceRow.heroid).Nodup) :
    ((TakePiece rows heroid awardid).1.map PieceRow.heroid).Nodup ∧
      ∀ h ∈ (TakePiece rows heroid awardid).1.map PieceRow.heroid,
        h = heroid ∨ h ∈ rows.map PieceRow.heroid := by
  induction rows with
  | nil => exact ⟨List.nodup_singleton _, fun h mem => .inl (List.mem_singleton.mp mem)⟩
  | cons row rows ih =>
      rw [List.map_cons, List.nodup_cons] at keys
      by_cases here : row.heroid = heroid
      · subst here
        rw [TakePiece_here]
        exact ⟨List.nodup_cons.mpr keys, fun h mem => .inr mem⟩
      · obtain ⟨nodup, known⟩ := ih keys.2
        rw [TakePiece_cons here]
        refine ⟨List.nodup_cons.mpr ⟨fun mem => ?_, nodup⟩, fun h mem => ?_⟩
        · exact (known _ mem).elim here keys.1
        · obtain rfl | mem := List.mem_cons.mp mem
          · exact .inr List.mem_cons_self
          · exact (known h mem).imp_right (List.mem_cons_of_mem _)

theorem listed_cons (h : HeroId) :
    listed (row :: rows) h = (if row.heroid = h then row.takelist else []) ++ listed rows h := by
  rw [listed, List.filter_cons]
  split
  · rename_i here
    rw [if_pos (of_decide_eq_true here), List.flatMap_cons, listed]
  · rename_i other
    rw [if_neg fun same => other (decide_eq_true same), List.nil_append, listed]

theorem listed_absent (out : heroid ∉ rows.map PieceRow.heroid) : listed rows heroid = [] := by
  rw [listed, List.filter_eq_nil_iff.mpr]
  · rfl
  · exact fun row mem same => out (of_decide_eq_true same ▸ List.mem_map_of_mem mem)

/-- The award is listed after those of the hero. -/
theorem listed_TakePiece (keys : (rows.map PieceRow.heroid).Nodup) (h : HeroId) :
    listed (TakePiece rows heroid awardid).1 h =
      listed rows h ++ if heroid = h then [awardid] else [] := by
  induction rows with
  | nil =>
      rw [TakePiece, List.findIdx?_nil]
      exact (listed_cons h).trans (List.append_nil _)
  | cons row rows ih =>
      rw [List.map_cons, List.nodup_cons] at keys
      by_cases here : row.heroid = heroid
      · subst here
        rw [TakePiece_here, listed_cons, listed_cons]
        by_cases same : row.heroid = h
        · subst same
          rw [if_pos rfl, if_pos rfl, if_pos rfl, listed_absent keys.1, List.append_nil,
            List.append_nil]
        · simp only [if_neg same, List.append_nil]
      · rw [TakePiece_cons here, listed_cons, listed_cons, ih keys.2, List.append_assoc]

/-- An award that is in no row of the hero is not listed. -/
theorem not_listed : awardid ∉ listed rows heroid ↔
    ∀ row ∈ rows, row.heroid = heroid → Include_V row.takelist (some awardid) = false := by
  rw [listed, List.mem_flatMap]
  constructor
  · intro out row mem here
    rw [Include_V, List.any_eq_false]
    intro v listed_ same
    obtain rfl := Option.some.inj (of_decide_eq_true same)
    exact out ⟨row, List.mem_filter.mpr ⟨mem, decide_eq_true here⟩, listed_⟩
  · rintro out ⟨row, mem, listed_⟩
    obtain ⟨mem, here⟩ := List.mem_filter.mp mem
    have absent := out row mem (of_decide_eq_true here)
    rw [Include_V, List.any_eq_false] at absent
    exact absent awardid listed_ (decide_eq_true rfl)

/-- A request grants an award, or changes nothing. -/
theorem TakePiece_cases :
    (s.Takes cfg heroid awardid ∧ (s.PieceShop_TakePiece cfg heroid awardid).1 =
        { s with
          mTakeInfo := (TakePiece s.mTakeInfo heroid awardid).1
          stored := save s.stored heroid (TakePiece s.mTakeInfo heroid awardid)
          grants := s.grants ++ [⟨heroid, awardid, true, s.ljexp heroid⟩] }) ∨
      (¬s.Takes cfg heroid awardid ∧ (s.PieceShop_TakePiece cfg heroid awardid).1 = s) := by
  rw [PieceShop_TakePiece, Takes]
  cases s.isLoaded with
  | false => exact .inr ⟨fun takes => (nomatch takes.1), rfl⟩
  | true =>
  cases found : reward cfg awardid with
  | none => exact .inr ⟨fun ⟨_, _, row, _⟩ => (nomatch row), rfl⟩
  | some cost =>
  cases hero : s.userhero heroid with
  | none => exact .inr ⟨fun ⟨_, _, _, has, _⟩ => (nomatch has), rfl⟩
  | some notLimit =>
  cases notLimit with
  | false => exact .inr ⟨fun ⟨_, _, _, has, _⟩ => (nomatch has), rfl⟩
  | true =>
  simp only [Bool.true_eq_false, if_false]
  by_cases few : s.ljexp heroid < cost
  · rw [if_pos few]
    refine .inr ⟨?_, rfl⟩
    rintro ⟨_, _, row, _, enough, _⟩
    obtain rfl := Option.some.inj row
    omega
  rw [if_neg few]
  cases taked : IsTaked s.mTakeInfo heroid awardid with
  | true => exact .inr ⟨fun ⟨_, _, _, _, _, not_⟩ => (nomatch not_), rfl⟩
  | false => exact .inl ⟨⟨trivial, cost, rfl, trivial, not_lt.mp few, rfl⟩, rfl⟩

theorem reward_Takes (takes : s.Takes cfg heroid awardid) :
    ∃ cost, reward cfg awardid = some cost ∧ cost ≤ s.ljexp heroid := by
  obtain ⟨_, cost, row, _, enough, _⟩ := takes
  exact ⟨cost, row, enough⟩

/-- A step keeps the awards, if and only if it takes none that is listed. -/
theorem pieced_step (inv : s.PieceInv) (pieced : Pieced cfg s) (moved : s.step cfg e = some s') :
    s'.PieceInv ∧ (Pieced cfg s' ↔ s.Untaken cfg e) := by
  cases e with
  | login =>
      obtain rfl := Option.some.inj moved
      exact ⟨⟨inv.keys, fun loaded => (nomatch loaded)⟩,
        iff_of_true ⟨pieced.once, pieced.earned, pieced.listed⟩ trivial⟩
  | hero heroid notLimit =>
      obtain rfl := Option.some.inj moved
      exact ⟨⟨inv.keys, inv.loaded⟩,
        iff_of_true ⟨pieced.once, pieced.earned, pieced.listed⟩ trivial⟩
  | expBook heroid ljexp =>
      obtain rfl := Option.some.inj moved
      exact ⟨⟨inv.keys, inv.loaded⟩,
        iff_of_true ⟨pieced.once, pieced.earned, pieced.listed⟩ trivial⟩
  | PieceShop_GetInfo =>
      obtain rfl := Option.some.inj moved
      rw [LoadData]
      split
      · exact ⟨inv, iff_of_true pieced trivial⟩
      · exact ⟨⟨inv.keys, fun _ => rfl⟩,
          iff_of_true ⟨pieced.once, pieced.earned, pieced.listed⟩ trivial⟩
  | PieceShop_TakePiece heroid awardid =>
      obtain rfl := Option.some.inj moved
      obtain ⟨takes, granted⟩ | ⟨refused, same⟩ := @TakePiece_cases cfg heroid awardid s
      · have memory := inv.loaded takes.1
        rw [granted, memory, save_eq inv.keys]
        refine ⟨⟨(TakePiece_keys inv.keys).1, fun _ => rfl⟩, ?_⟩
        have untaken : s.Untaken cfg (.PieceShop_TakePiece heroid awardid) ↔
            (heroid, awardid) ∉ s.grants.map fun g => (g.heroid, g.awardid) := by
          have keys : (heroid, awardid) ∈ s.grants.map (fun g => (g.heroid, g.awardid)) ↔
              awardid ∈ listed s.stored heroid := by
            rw [pieced.listed, List.mem_map, List.mem_map]
            constructor
            · rintro ⟨g, mem, key⟩
              obtain ⟨here, award⟩ := Prod.mk.inj key
              exact ⟨g, List.mem_filter.mpr ⟨mem, decide_eq_true here⟩, award⟩
            · rintro ⟨g, mem, award⟩
              obtain ⟨mem, here⟩ := List.mem_filter.mp mem
              exact ⟨g, mem, Prod.ext (of_decide_eq_true here) award⟩
          rw [keys, not_listed, ← memory]
          exact ⟨fun untaken => untaken takes, fun absent _ => absent⟩
        rw [untaken]
        constructor
        · intro pieced'
          have once := pieced'.once
          rw [List.map_append, List.map_singleton, ← List.concat_eq_append,
            List.nodup_concat] at once
          exact once.1
        · intro out
          refine ⟨?_, fun g mem => ?_, fun h => ?_⟩
          · rw [List.map_append, List.map_singleton, ← List.concat_eq_append, List.nodup_concat]
            exact ⟨out, pieced.once⟩
          · obtain mem | mem := List.mem_append.mp mem
            · exact pieced.earned g mem
            · rw [List.mem_singleton.mp mem]
              exact ⟨rfl, reward_Takes takes⟩
          · rw [listed_TakePiece inv.keys, pieced.listed, List.filter_append, List.map_append]
            congr 1
            split
            · rename_i here
              simp [here]
            · rename_i other
              simp [other]
      · rw [same]
        exact ⟨inv, iff_of_true pieced fun takes => absurd takes refused⟩

theorem pieced_start : PieceInv start ∧ Pieced cfg start :=
  ⟨⟨List.nodup_nil, fun loaded => (nomatch loaded)⟩,
    ⟨List.nodup_nil, fun _ mem => (nomatch mem), fun _ => rfl⟩⟩

theorem run_piece {es : List PieceEvent} (run : Run (step cfg) (Untaken cfg) start es s) :
    s.PieceInv ∧ Pieced cfg s := by
  refine run.invariant (fun s => s.PieceInv ∧ Pieced cfg s) pieced_start ?_
  intro t e u inv untaken moved
  obtain ⟨after, exact_⟩ := pieced_step inv.1 inv.2 moved
  exact ⟨after, exact_.mpr untaken⟩

/-- Along a run each award is granted once, earned and listed, if and only if none that is listed
is taken. -/
theorem run_pieced {es : List PieceEvent} (run : Run (step cfg) anyStep start es s) :
    Run (step cfg) (Untaken cfg) start es s ↔
      ∀ front t, front <+: es → Run (step cfg) anyStep start front t → Pieced cfg t := by
  refine run.always_iff (Pieced cfg) pieced_start.2 fun front t e u before moved => ?_
  obtain ⟨inv, pieced⟩ := run_piece before
  exact (pieced_step inv pieced moved).2

end Rows

def pieceEvents : List PieceEvent :=
  [.hero 3 (some true), .expBook 3 500, .PieceShop_GetInfo, .PieceShop_TakePiece 3 1, .login,
    .PieceShop_GetInfo, .PieceShop_TakePiece 3 2]

/-- A user takes the first award of a hero and, after a login, the second. -/
theorem run_pieced_two : ∃ s, Run (step [100, 300]) anyStep start pieceEvents s ∧
    s.stored = [⟨3, [1, 2]⟩] ∧
    (Run (step [100, 300]) (Untaken [100, 300]) start pieceEvents s ↔
      ∀ front t, front <+: pieceEvents →
        Run (step [100, 300]) anyStep start front t → Pieced [100, 300] t) := by
  have run := @run_of_exec _ _ (step [100, 300]) start pieceEvents _ rfl
  exact ⟨_, run, by decide +kernel, run_pieced run⟩

/-- A user takes an award twice. -/
theorem pieced_fails : ¬∀ cfg es s, Run (step cfg) anyStep start es s → Pieced cfg s := by
  intro pieced
  have run := @run_of_exec _ _ (step [100]) start
    [.hero 3 (some true), .expBook 3 500, .PieceShop_GetInfo, .PieceShop_TakePiece 3 1,
      .PieceShop_TakePiece 3 1] _ rfl
  exact absurd (pieced _ _ _ run).once (by decide +kernel)

end PieceUser

end HuluLandlord.Agent
