import HuluLandlord.Define
import HuluLandlord.Table
import HuluLandlord.Transition
import Mathlib.Order.Bounds.Basic

/-!
The friendship of two users, as the friend service raises it. Each of them has a row for the other, and
a command adds to both, one after the other. It reads a row and writes it by two calls of the database,
and other commands run while it waits for either.
-/
namespace HuluLandlord.Services
open Transition Table

/-- The `exp` of the levels of `cfg_friend_vaule` but the last one, which no value takes further. -/
structure FriendLevels where
  exps : List Int
  increasing : exps.Pairwise (· < ·)

/-- What a command reads of a row of `UserFriend` and writes. -/
structure Friendship where
  friendVal : Int
  friendLv : Nat
  deriving DecidableEq, Repr

/-- Where a command waits: for a row, or for what it made of the row it read. -/
inductive ExpPc
  | get
  | update (read : Friendship)
  | getOther
  | updateOther (read : Friendship)
  | done
  deriving DecidableEq, Repr

/-- A command `FriendExpAdd`. -/
structure ExpAdd where
  uId : UserId
  friendId : UserId
  num : Nat
  pc : ExpPc
  deriving DecidableEq, Repr

/-- The row with `id` and `uId` is `rows id uId`. -/
structure FriendExpState where
  rows : UserId → UserId → Option Friendship
  cmds : List ExpAdd

inductive ExpEvent
  | FriendExpAdd (uId friendId : UserId) (num : Nat)
  | resume (i : Nat)
  deriving DecidableEq, Repr

namespace FriendLevels
variable (cfg : FriendLevels)

/-- The loop of `addExp` over the levels from `friendLv` on. -/
def raiseLv (friendVal : Int) (friendLv : Nat) : List Int → Nat
  | [] => friendLv
  | exp :: exps => if friendVal ≥ exp then raiseLv friendVal (friendLv + 1) exps else friendLv

def addExp (target : Friendship) (num : Nat) : Friendship :=
  let friendVal := target.friendVal + num
  ⟨friendVal, raiseLv friendVal target.friendLv (cfg.exps.drop target.friendLv)⟩

/-- The levels whose `exp` the value has got past, and the first level. -/
def reached (friendVal : Int) : Set Nat :=
  {lv | lv = 0 ∨ ∃ exp, cfg.exps[lv - 1]? = some exp ∧ exp ≤ friendVal}

end FriendLevels

namespace FriendExpState
variable (cfg : FriendLevels)

def setRow (s : FriendExpState) (id uId : UserId) (row : Friendship) : FriendExpState :=
  { s with rows := Function.update s.rows id (Function.update (s.rows id) uId (some row)) }

def setCmd (s : FriendExpState) (i : Nat) (c : ExpAdd) (pc : ExpPc) : FriendExpState :=
  { s with cmds := s.cmds.set i { c with pc } }

/-- A command goes on to its next call of the database. -/
def resume (s : FriendExpState) (i : Nat) (c : ExpAdd) : Option FriendExpState :=
  match c.pc with
  | .get => match s.rows c.uId c.friendId with
    | none => some (s.setCmd i c .done)
    | some row => some (s.setCmd i c (.update row))
  | .update read =>
      some ((s.setRow c.uId c.friendId (cfg.addExp read c.num)).setCmd i c .getOther)
  | .getOther => match s.rows c.friendId c.uId with
    | none => some (s.setCmd i c .done)
    | some row => some (s.setCmd i c (.updateOther row))
  | .updateOther read =>
      some ((s.setRow c.friendId c.uId (cfg.addExp read c.num)).setCmd i c .done)
  | .done => none

def step (s : FriendExpState) : ExpEvent → Option FriendExpState
  | .FriendExpAdd uId friendId num => some { s with cmds := s.cmds ++ [⟨uId, friendId, num, .get⟩] }
  | .resume i => s.cmds[i]?.bind fun c => s.resume cfg i c

def start (rows : UserId → UserId → Option Friendship) : FriendExpState := ⟨rows, []⟩

end FriendExpState

namespace FriendLevels
variable {cfg : FriendLevels} {v : Int} {lv : Nat}

/-- The next level is out of reach. -/
theorem isGreatest_reached (mem : lv ∈ cfg.reached v)
    (next : ∀ exp, cfg.exps[lv]? = some exp → v < exp) : IsGreatest (cfg.reached v) lv := by
  refine ⟨mem, fun m reached => ?_⟩
  obtain rfl | ⟨exp, found, le⟩ := reached
  · exact Nat.zero_le lv
  · by_contra above
    have before : lv ≤ m - 1 := by omega
    obtain ⟨inside, here⟩ := List.getElem?_eq_some_iff.mp found
    have inside' : lv < cfg.exps.length := before.trans_lt inside
    have level : v < cfg.exps[lv] := next _ (List.getElem?_eq_getElem inside')
    have order : cfg.exps[lv] ≤ exp := by
      rw [← here]
      obtain earlier | same := before.lt_or_eq
      · exact le_of_lt (List.pairwise_iff_getElem.mp cfg.increasing lv (m - 1) inside' inside earlier)
      · simp only [same, le_refl]
    exact absurd le (not_le.mpr (level.trans_le order))

theorem raiseLv_greatest {rest : List Int} (ahead : cfg.exps.drop lv = rest)
    (mem : lv ∈ cfg.reached v) : IsGreatest (cfg.reached v) (raiseLv v lv rest) := by
  induction rest generalizing lv with
  | nil =>
      rw [raiseLv]
      refine isGreatest_reached mem fun exp found => ?_
      rw [List.getElem?_eq_none (List.drop_eq_nil_iff.mp ahead)] at found
      cases found
  | cons exp rest ih =>
      have here : cfg.exps[lv]? = some exp := by
        rw [← List.head?_drop, ahead]
        rfl
      rw [raiseLv]
      split
      · rename_i past
        refine ih ?_ (.inr ⟨exp, here, past⟩)
        rw [← List.tail_drop, ahead]
        rfl
      · rename_i short
        refine isGreatest_reached mem fun exp' found => ?_
        rw [← Option.some.inj (here.symm.trans found)]
        exact not_le.mp short

/-- A row whose level is that of its value. -/
def Leveled (cfg : FriendLevels) (row : Friendship) : Prop :=
  IsGreatest (cfg.reached row.friendVal) row.friendLv

theorem addExp_leveled {row : Friendship} (leveled : cfg.Leveled row) (num : Nat) :
    cfg.Leveled (cfg.addExp row num) := by
  refine raiseLv_greatest rfl ?_
  obtain first | ⟨exp, found, le⟩ := leveled.1
  · exact .inl first
  · exact .inr ⟨exp, found, le.trans (Int.le_add_of_nonneg_right (Int.natCast_nonneg num))⟩

end FriendLevels

namespace ExpAdd

/-- The row a command is about to write, and what it has read of it. -/
def writes (c : ExpAdd) : Option ((UserId × UserId) × Friendship) :=
  match c.pc with
  | .update read => some ((c.uId, c.friendId), read)
  | .updateOther read => some ((c.friendId, c.uId), read)
  | .get | .getOther | .done => none

/-- What a command has added to the row of `a` for `b`. -/
def put (a b : UserId) (c : ExpAdd) : Int :=
  if c.uId = a ∧ c.friendId = b then
    match c.pc with
    | .get | .update _ => 0
    | .getOther | .updateOther _ | .done => c.num
  else if c.uId = b ∧ c.friendId = a then
    match c.pc with
    | .get | .update _ | .getOther | .updateOther _ => 0
    | .done => c.num
  else 0

/-- The command is one for these two users. -/
def On (a b : UserId) (c : ExpAdd) : Prop :=
  (c.uId = a ∧ c.friendId = b) ∨ (c.uId = b ∧ c.friendId = a)

instance decOn {a b : UserId} {c : ExpAdd} : Decidable (c.On a b) :=
  inferInstanceAs (Decidable (_ ∨ _))

end ExpAdd

namespace FriendExpState
variable {cfg : FriendLevels} {s t : FriendExpState} {a b : UserId} {i : Nat} {c : ExpAdd}

/-- What a command's step is for one row of two that are there: it may write it. -/
inductive Resumed (cfg : FriendLevels) (a b : UserId) (s t : FriendExpState) (i : Nat) (c : ExpAdd) :
    Prop
  | waits (pc : ExpPc) (cmds : t.cmds = s.cmds.set i { c with pc }) (row : t.rows a b = s.rows a b)
      (other : ∀ read, c.writes ≠ some ((a, b), read))
      (put : ExpAdd.put a b { c with pc } = c.put a b)
      (read : ∀ read, ExpAdd.writes { c with pc } = some ((a, b), read) → s.rows a b = some read)
  | writes (pc : ExpPc) (read : Friendship) (cmds : t.cmds = s.cmds.set i { c with pc })
      (writes : c.writes = some ((a, b), read)) (row : t.rows a b = some (cfg.addExp read c.num))
      (put : ExpAdd.put a b { c with pc } = c.put a b + c.num)
      (next : ∀ read, ExpAdd.writes { c with pc } ≠ some ((a, b), read))

theorem rows_setRow {id uId : UserId} {row : Friendship} : (s.setRow id uId row).rows a b =
    if id = a ∧ uId = b then some row else s.rows a b := by
  simp only [setRow, Function.update_apply]
  by_cases first : a = id
  · subst first
    by_cases second : b = uId
    · subst second
      simp
    · simp [second, Ne.symm second]
  · simp [first, Ne.symm first]

theorem resume_resumed (distinct : a ≠ b) (own : (s.rows a b).isSome) (other : (s.rows b a).isSome)
    (moved : s.resume cfg i c = some t) : Resumed cfg a b s t i c := by
  have apart : ¬((c.uId = a ∧ c.friendId = b) ∧ c.uId = b ∧ c.friendId = a) :=
    fun both => distinct (both.1.1.symm.trans both.2.1)
  rw [resume] at moved
  cases here : c.pc with
  | get =>
      simp only [here] at moved
      cases row : s.rows c.uId c.friendId with
      | none =>
          simp only [row] at moved
          obtain rfl := Option.some.inj moved
          have mine : ¬(c.uId = a ∧ c.friendId = b) := by
            rintro ⟨rfl, rfl⟩
            rw [row] at own
            cases own
          have his : ¬(c.uId = b ∧ c.friendId = a) := by
            rintro ⟨rfl, rfl⟩
            rw [row] at other
            cases other
          refine .waits .done rfl rfl ?_ ?_ ?_
          · simp [ExpAdd.writes, here]
          · simp only [ExpAdd.put, if_neg mine, if_neg his]
          · simp [ExpAdd.writes]
      | some read =>
          simp only [row] at moved
          obtain rfl := Option.some.inj moved
          refine .waits (.update read) rfl rfl ?_ ?_ ?_
          · simp [ExpAdd.writes, here]
          · simp only [ExpAdd.put, here]
          · intro read' writes
            simp only [ExpAdd.writes, Option.some.injEq, Prod.mk.injEq] at writes
            obtain ⟨⟨rfl, rfl⟩, rfl⟩ := writes
            exact row
  | update read =>
      simp only [here] at moved
      obtain rfl := Option.some.inj moved
      by_cases mine : c.uId = a ∧ c.friendId = b
      · refine .writes .getOther read rfl ?_ ?_ ?_ ?_
        · simp only [ExpAdd.writes, here, mine.1, mine.2]
        · exact rows_setRow.trans (if_pos mine)
        · simp only [ExpAdd.put, here, if_pos mine, zero_add]
        · simp [ExpAdd.writes]
      · refine .waits .getOther rfl (rows_setRow.trans (if_neg mine)) ?_ ?_ ?_
        · intro read' writes
          simp only [ExpAdd.writes, here, Option.some.injEq, Prod.mk.injEq] at writes
          exact mine writes.1
        · simp only [ExpAdd.put, here, if_neg mine]
        · simp [ExpAdd.writes]
  | getOther =>
      simp only [here] at moved
      cases row : s.rows c.friendId c.uId with
      | none =>
          simp only [row] at moved
          obtain rfl := Option.some.inj moved
          have mine : ¬(c.uId = a ∧ c.friendId = b) := by
            rintro ⟨rfl, rfl⟩
            rw [row] at other
            cases other
          have his : ¬(c.uId = b ∧ c.friendId = a) := by
            rintro ⟨rfl, rfl⟩
            rw [row] at own
            cases own
          refine .waits .done rfl rfl ?_ ?_ ?_
          · simp [ExpAdd.writes, here]
          · simp only [ExpAdd.put, if_neg mine, if_neg his]
          · simp [ExpAdd.writes]
      | some read =>
          simp only [row] at moved
          obtain rfl := Option.some.inj moved
          refine .waits (.updateOther read) rfl rfl ?_ ?_ ?_
          · simp [ExpAdd.writes, here]
          · simp only [ExpAdd.put, here]
          · intro read' writes
            simp only [ExpAdd.writes, Option.some.injEq, Prod.mk.injEq] at writes
            obtain ⟨⟨rfl, rfl⟩, rfl⟩ := writes
            exact row
  | updateOther read =>
      simp only [here] at moved
      obtain rfl := Option.some.inj moved
      by_cases his : c.friendId = a ∧ c.uId = b
      · have mine : ¬(c.uId = a ∧ c.friendId = b) := fun mine => apart ⟨mine, his.symm⟩
        refine .writes .done read rfl ?_ ?_ ?_ ?_
        · simp only [ExpAdd.writes, here, his.1, his.2]
        · exact rows_setRow.trans (if_pos his)
        · simp only [ExpAdd.put, here, if_neg mine, if_pos his.symm, zero_add]
        · simp [ExpAdd.writes]
      · refine .waits .done rfl (rows_setRow.trans (if_neg his)) ?_ ?_ ?_
        · intro read' writes
          simp only [ExpAdd.writes, here, Option.some.injEq, Prod.mk.injEq] at writes
          exact his writes.1
        · have his' : ¬(c.uId = b ∧ c.friendId = a) := fun his' => his his'.symm
          simp only [ExpAdd.put, here, if_neg his']
        · simp [ExpAdd.writes]
  | done =>
      simp only [here] at moved
      cases moved

/-- What has been added to the row of `a` for `b`. -/
def added (s : FriendExpState) (a b : UserId) : Int := (s.cmds.map (ExpAdd.put a b)).sum

/-- The row and all that has been read of it have the levels of their values. -/
structure RowLeveled (cfg : FriendLevels) (a b : UserId) (s : FriendExpState) : Prop where
  row : ∃ row, s.rows a b = some row ∧ cfg.Leveled row
  reads : ∀ c ∈ s.cmds, ∀ read, c.writes = some ((a, b), read) → cfg.Leveled read

/-- The row has all that has been added to it. -/
def Exact (v₀ : Int) (a b : UserId) (s : FriendExpState) : Prop :=
  ∀ row, s.rows a b = some row → row.friendVal = v₀ + s.added a b

/-- No row has more than has been added, and once a row has less, so has all that was read of it. -/
structure Behind (v₀ : Int) (a b : UserId) (s : FriendExpState) : Prop where
  row : ∀ row, s.rows a b = some row → row.friendVal ≤ v₀ + s.added a b
  reads : ∀ c ∈ s.cmds, ∀ read, c.writes = some ((a, b), read) →
    read.friendVal ≤ v₀ + s.added a b ∧ (¬Exact v₀ a b s → read.friendVal < v₀ + s.added a b)

section Row
variable {v₀ : Int}

theorem added_set {pc : ExpPc} (found : s.cmds[i]? = some c)
    (cmds : t.cmds = s.cmds.set i { c with pc }) :
    t.added a b = s.added a b - c.put a b + ExpAdd.put a b { c with pc } := by
  rw [added, added, cmds, sum_map_set found]

theorem RowLeveled.resumed (leveled : RowLeveled cfg a b s) (found : s.cmds[i]? = some c)
    (resumed : Resumed cfg a b s t i c) : RowLeveled cfg a b t := by
  obtain ⟨own, here, level⟩ := leveled.row
  cases resumed with
  | waits pc cmds row _ _ read =>
      refine ⟨⟨own, row.trans here, level⟩, fun c' mem read' writes => ?_⟩
      rw [cmds] at mem
      obtain old | rfl := List.mem_or_eq_of_mem_set mem
      · exact leveled.reads c' old read' writes
      · rw [← Option.some.inj (here.symm.trans (read read' writes))]
        exact level
  | writes pc read cmds writes row _ next =>
      have level := leveled.reads c (List.mem_of_getElem? found) read writes
      refine ⟨⟨_, row, FriendLevels.addExp_leveled level c.num⟩, fun c' mem read' writes => ?_⟩
      rw [cmds] at mem
      obtain old | rfl := List.mem_or_eq_of_mem_set mem
      · exact leveled.reads c' old read' writes
      · exact absurd writes (next read')

theorem Exact.resumed (exact_ : Exact v₀ a b s) (found : s.cmds[i]? = some c)
    (resumed : Resumed cfg a b s t i c)
    (fresh : ∀ read, c.writes = some ((a, b), read) → s.rows a b = some read) : Exact v₀ a b t := by
  intro after here
  cases resumed with
  | waits pc cmds row _ put _ =>
      rw [added_set found cmds, put, sub_add_cancel]
      exact exact_ after (row.symm.trans here)
  | writes pc read cmds writes row put _ =>
      rw [added_set found cmds, put, ← Option.some.inj (row.symm.trans here)]
      have current := exact_ read (fresh read writes)
      rw [FriendLevels.addExp, current]
      ring

/-- A write of a row that has changed loses what was added since it was read, for good. -/
theorem Behind.resumed (behind : Behind v₀ a b s) (leveled : RowLeveled cfg a b s)
    (positive : 0 < c.num) (found : s.cmds[i]? = some c) (resumed : Resumed cfg a b s t i c) :
    Behind v₀ a b t ∧ (Exact v₀ a b t → Exact v₀ a b s ∧
      ∀ read, c.writes = some ((a, b), read) → s.rows a b = some read) := by
  have mem_c := List.mem_of_getElem? found
  obtain ⟨own, here, level⟩ := leveled.row
  cases resumed with
  | waits pc cmds row other put read =>
      have same : t.added a b = s.added a b := by
        rw [added_set found cmds, put, sub_add_cancel]
      have iff : Exact v₀ a b t ↔ Exact v₀ a b s := by
        rw [Exact, Exact, row, same]
      refine ⟨⟨fun after here => ?_, fun c' mem read' writes => ?_⟩, fun exact_ =>
        ⟨iff.mp exact_, fun read writes => absurd writes (other read)⟩⟩
      · rw [same]
        exact behind.row after (row.symm.trans here)
      · rw [same, iff]
        rw [cmds] at mem
        obtain old | rfl := List.mem_or_eq_of_mem_set mem
        · exact behind.reads c' old read' writes
        · have current := read read' writes
          have below := behind.row read' current
          refine ⟨below, fun lost => lt_of_le_of_ne below fun all => lost fun row' here' => ?_⟩
          rw [← Option.some.inj (current.symm.trans here')]
          exact all
  | writes pc read cmds writes row put next =>
      have more : t.added a b = s.added a b + c.num := by
        rw [added_set found cmds, put]
        ring
      have reads := behind.reads c mem_c read writes
      have value : (cfg.addExp read c.num).friendVal = read.friendVal + c.num := rfl
      refine ⟨⟨fun after here => ?_, fun c' mem read' writes' => ?_⟩, fun exact_ => ?_⟩
      · rw [← Option.some.inj (row.symm.trans here), value, more]
        linarith only [reads.1]
      · rw [cmds] at mem
        obtain old | rfl := List.mem_or_eq_of_mem_set mem
        · have others := (behind.reads c' old read' writes').1
          rw [more]
          constructor
          · linarith only [others, positive]
          · intro _
            linarith only [others, positive]
        · exact absurd writes' (next read')
      · have whole := exact_ _ row
        rw [value, more] at whole
        have current : read.friendVal = v₀ + s.added a b := by linarith only [whole]
        have exact_s : Exact v₀ a b s := by
          by_contra lost
          exact absurd current (ne_of_lt (reads.2 lost))
        refine ⟨exact_s, fun read' writes' => ?_⟩
        obtain rfl : read = read' := by
          rw [writes] at writes'
          exact congrArg Prod.snd (Option.some.inj writes')
        have same : own.friendVal = read.friendVal := (exact_s own here).trans current.symm
        have level' := leveled.reads c mem_c read writes
        rw [FriendLevels.Leveled, ← same] at level'
        have lv : own.friendLv = read.friendLv := level.unique level'
        rw [here]
        exact congrArg some (Friendship.mk.injEq .. ▸ ⟨same, lv⟩)

theorem added_start {uId friendId : UserId} {num : Nat}
    (cmds : t.cmds = s.cmds ++ [⟨uId, friendId, num, .get⟩]) : t.added a b = s.added a b := by
  have none_yet : ExpAdd.put a b ⟨uId, friendId, num, .get⟩ = 0 := by
    simp only [ExpAdd.put, ite_self]
  rw [added, added, cmds, List.map_append, List.sum_append, List.map_singleton, none_yet]
  exact add_zero _

theorem reads_start {uId friendId : UserId} {num : Nat} {P : Friendship → Prop}
    (cmds : t.cmds = s.cmds ++ [⟨uId, friendId, num, .get⟩])
    (reads : ∀ c ∈ s.cmds, ∀ read, c.writes = some ((a, b), read) → P read) :
    ∀ c ∈ t.cmds, ∀ read, c.writes = some ((a, b), read) → P read := by
  intro c mem read writes
  rw [cmds] at mem
  obtain old | new := List.mem_append.mp mem
  · exact reads c old read writes
  · obtain rfl := List.mem_singleton.mp new
    cases writes

end Row

/-- The pair's rows are there, and they and all that has been read of them have the levels of
their values. -/
structure PairLeveled (cfg : FriendLevels) (a b : UserId) (s : FriendExpState) : Prop where
  own : RowLeveled cfg a b s
  other : RowLeveled cfg b a s

/-- Both rows have all that has been added to them. -/
def PairExact (v₀ : Int) (a b : UserId) (s : FriendExpState) : Prop :=
  Exact v₀ a b s ∧ Exact v₀ b a s

structure PairBehind (v₀ : Int) (a b : UserId) (s : FriendExpState) : Prop where
  own : Behind v₀ a b s
  other : Behind v₀ b a s
  positive : ∀ c ∈ s.cmds, 0 < c.num

/-- No row of the two is written that has changed since the command read it. -/
def Fresh (a b : UserId) (s : FriendExpState) : ExpEvent → Prop
  | .FriendExpAdd _ _ _ => True
  | .resume i => ∀ c ∈ s.cmds[i]?, ∀ w ∈ c.writes, w.1 = (a, b) ∨ w.1 = (b, a) →
      s.rows w.1.1 w.1.2 = some w.2

instance decFresh {e : ExpEvent} : Decidable (Fresh a b s e) :=
  match e with
  | .FriendExpAdd _ _ _ => .isTrue trivial
  | .resume i => inferInstanceAs (Decidable (∀ c ∈ s.cmds[i]?, ∀ w ∈ c.writes, _ → _))

def Positive (_ : FriendExpState) : ExpEvent → Prop
  | .FriendExpAdd _ _ num => 0 < num
  | .resume _ => True

/-- What the commands for the two users have been asked to add. -/
def total (s : FriendExpState) (a b : UserId) : Int :=
  ((s.cmds.filter (ExpAdd.On a b)).map fun c => (c.num : Int)).sum

/-- The two rows are one, with all that was to be added to the first value and with the level of the
sum. -/
def Agree (cfg : FriendLevels) (v₀ : Int) (a b : UserId) (s : FriendExpState) : Prop :=
  ∃ row, s.rows a b = some row ∧ s.rows b a = some row ∧
    row.friendVal = v₀ + s.total a b ∧ IsGreatest (cfg.reached row.friendVal) row.friendLv

section Pair
variable {v₀ : Int} {e : ExpEvent}

theorem step_cases (distinct : a ≠ b) (leveled : PairLeveled cfg a b s)
    (moved : s.step cfg e = some t) :
    (∃ uId friendId num, e = .FriendExpAdd uId friendId num ∧ t.rows = s.rows ∧
      t.cmds = s.cmds ++ [⟨uId, friendId, num, .get⟩]) ∨
    (∃ i c, e = .resume i ∧ s.cmds[i]? = some c ∧ Resumed cfg a b s t i c ∧
      Resumed cfg b a s t i c) := by
  cases e with
  | FriendExpAdd uId friendId num =>
      simp only [step, Option.some.injEq] at moved
      subst moved
      exact .inl ⟨uId, friendId, num, rfl, rfl, rfl⟩
  | resume i =>
      simp only [step, Option.bind_eq_some_iff] at moved
      obtain ⟨c, found, moved⟩ := moved
      obtain ⟨own, here, _⟩ := leveled.own.row
      obtain ⟨other, there, _⟩ := leveled.other.row
      have own_some : (s.rows a b).isSome := Option.isSome_of_eq_some here
      have other_some : (s.rows b a).isSome := Option.isSome_of_eq_some there
      exact .inr ⟨i, c, rfl, found, resume_resumed distinct own_some other_some moved,
        resume_resumed distinct.symm other_some own_some moved⟩

theorem leveled_step (distinct : a ≠ b) (leveled : PairLeveled cfg a b s)
    (moved : s.step cfg e = some t) : PairLeveled cfg a b t := by
  obtain ⟨uId, friendId, num, _, rows, cmds⟩ | ⟨i, c, _, found, own, other⟩ :=
    step_cases distinct leveled moved
  · refine ⟨⟨?_, reads_start cmds leveled.own.reads⟩, ⟨?_, reads_start cmds leveled.other.reads⟩⟩
    · rw [rows]
      exact leveled.own.row
    · rw [rows]
      exact leveled.other.row
  · exact ⟨leveled.own.resumed found own, leveled.other.resumed found other⟩

theorem Fresh.reads (fresh : Fresh a b s (.resume i)) (found : s.cmds[i]? = some c) :
    (∀ read, c.writes = some ((a, b), read) → s.rows a b = some read) ∧
      ∀ read, c.writes = some ((b, a), read) → s.rows b a = some read :=
  ⟨fun read writes => fresh c found ((a, b), read) writes (.inl rfl),
    fun read writes => fresh c found ((b, a), read) writes (.inr rfl)⟩

theorem fresh_of_reads (found : s.cmds[i]? = some c)
    (own : ∀ read, c.writes = some ((a, b), read) → s.rows a b = some read)
    (other : ∀ read, c.writes = some ((b, a), read) → s.rows b a = some read) :
    Fresh a b s (.resume i) := by
  intro c' found' w writes pair
  obtain rfl := Option.some.inj (found.symm.trans found')
  obtain ⟨key, read⟩ := w
  obtain rfl | rfl := pair
  · exact own read writes
  · exact other read writes

theorem exact_start {uId friendId : UserId} {num : Nat} (rows : t.rows = s.rows)
    (cmds : t.cmds = s.cmds ++ [⟨uId, friendId, num, .get⟩]) :
    Exact v₀ a b t ↔ Exact v₀ a b s := by
  rw [Exact, Exact, rows, added_start cmds]

theorem exact_step (distinct : a ≠ b) (leveled : PairLeveled cfg a b s)
    (exact_ : PairExact v₀ a b s) (fresh : Fresh a b s e) (moved : s.step cfg e = some t) :
    PairExact v₀ a b t := by
  obtain ⟨uId, friendId, num, _, rows, cmds⟩ | ⟨i, c, rfl, found, own, other⟩ :=
    step_cases distinct leveled moved
  · exact ⟨(exact_start rows cmds).mpr exact_.1, (exact_start rows cmds).mpr exact_.2⟩
  · obtain ⟨own_fresh, other_fresh⟩ := fresh.reads found
    exact ⟨exact_.1.resumed found own own_fresh, exact_.2.resumed found other other_fresh⟩

theorem Behind.started {uId friendId : UserId} {num : Nat} (behind : Behind v₀ a b s)
    (rows : t.rows = s.rows) (cmds : t.cmds = s.cmds ++ [⟨uId, friendId, num, .get⟩]) :
    Behind v₀ a b t := by
  refine ⟨?_, reads_start cmds ?_⟩
  · rw [rows, added_start cmds]
    exact behind.row
  · rw [exact_start rows cmds, added_start cmds]
    exact behind.reads

theorem behind_step (distinct : a ≠ b) (leveled : PairLeveled cfg a b s)
    (behind : PairBehind v₀ a b s) (positive : Positive s e) (moved : s.step cfg e = some t) :
    PairBehind v₀ a b t ∧ (PairExact v₀ a b t → PairExact v₀ a b s ∧ Fresh a b s e) := by
  obtain ⟨uId, friendId, num, rfl, rows, cmds⟩ | ⟨i, c, rfl, found, own, other⟩ :=
    step_cases distinct leveled moved
  · refine ⟨⟨behind.own.started rows cmds, behind.other.started rows cmds, ?_⟩, fun exact_ => ?_⟩
    · rw [cmds]
      exact List.forall_mem_append.mpr ⟨behind.positive, List.forall_mem_singleton.mpr positive⟩
    · exact ⟨⟨(exact_start rows cmds).mp exact_.1, (exact_start rows cmds).mp exact_.2⟩, trivial⟩
  · have adds := behind.positive c (List.mem_of_getElem? found)
    obtain ⟨behind_own, own_exact⟩ := behind.own.resumed leveled.own adds found own
    obtain ⟨behind_other, other_exact⟩ := behind.other.resumed leveled.other adds found other
    refine ⟨⟨behind_own, behind_other, ?_⟩, fun exact_ => ?_⟩
    · have cmds : ∃ pc, t.cmds = s.cmds.set i { c with pc } := by
        cases own with
        | waits pc cmds => exact ⟨pc, cmds⟩
        | writes pc _ cmds => exact ⟨pc, cmds⟩
      obtain ⟨pc, cmds⟩ := cmds
      intro c' mem
      rw [cmds] at mem
      obtain old | rfl := List.mem_or_eq_of_mem_set mem
      · exact behind.positive c' old
      · exact adds
    · obtain ⟨own_before, own_fresh⟩ := own_exact exact_.1
      obtain ⟨other_before, other_fresh⟩ := other_exact exact_.2
      exact ⟨⟨own_before, other_before⟩, fresh_of_reads found own_fresh other_fresh⟩

theorem put_done (finished : c.pc = .done) :
    c.put a b = if c.On a b then (c.num : Int) else 0 := by
  by_cases mine : c.uId = a ∧ c.friendId = b
  · simp only [ExpAdd.put, ExpAdd.On, finished, mine, and_self, true_or, if_true]
  · by_cases his : c.uId = b ∧ c.friendId = a
    · simp only [ExpAdd.put, ExpAdd.On, finished, his, and_self, or_true, if_true, ite_self]
    · simp only [ExpAdd.put, ExpAdd.On, mine, his, or_self, if_false]

theorem added_done (finished : ∀ c ∈ s.cmds, c.pc = .done) : s.added a b = s.total a b := by
  revert finished
  unfold added total
  induction s.cmds with
  | nil => exact fun _ => rfl
  | cons c cmds ih =>
      intro finished
      rw [List.forall_mem_cons] at finished
      rw [List.map_cons, List.sum_cons, ih finished.2, put_done finished.1, List.filter_cons]
      by_cases on : c.On a b
      · simp [on]
      · simp [on]

theorem total_comm : s.total b a = s.total a b := by
  have same : ∀ c : ExpAdd, c.On b a ↔ c.On a b := fun c => Or.comm
  simp only [total, same]

/-- The rows agree once they have all that has been added to them. -/
theorem agree_iff (leveled : PairLeveled cfg a b s) (finished : ∀ c ∈ s.cmds, c.pc = .done) :
    Agree cfg v₀ a b s ↔ PairExact v₀ a b s := by
  constructor
  · rintro ⟨row, own, other, value, _⟩
    refine ⟨fun row' here => ?_, fun row' here => ?_⟩
    · rw [← Option.some.inj (own.symm.trans here), added_done finished, value]
    · rw [← Option.some.inj (other.symm.trans here), added_done finished, total_comm, value]
  · intro exact_
    obtain ⟨own, here, level⟩ := leveled.own.row
    obtain ⟨other, there, level'⟩ := leveled.other.row
    have value := exact_.1 own here
    have value' := exact_.2 other there
    rw [added_done finished] at value value'
    rw [total_comm] at value'
    have same : other.friendVal = own.friendVal := value'.trans value.symm
    rw [FriendLevels.Leveled, same] at level'
    have one : other = own := congr (congrArg Friendship.mk same) (level'.unique level)
    exact ⟨own, here, one ▸ there, value, level⟩

end Pair

section Runs
variable {rows : UserId → UserId → Option Friendship} {row : Friendship} {es : List ExpEvent}
  {ok : FriendExpState → ExpEvent → Prop}

theorem leveled_start (own : rows a b = some row) (other : rows b a = some row)
    (level : cfg.Leveled row) : PairLeveled cfg a b (start rows) :=
  ⟨⟨⟨row, own, level⟩, fun _ mem => absurd mem List.not_mem_nil⟩,
    ⟨⟨row, other, level⟩, fun _ mem => absurd mem List.not_mem_nil⟩⟩

theorem run_leveled (distinct : a ≠ b) (leveled : PairLeveled cfg a b s)
    (run : Run (step cfg) ok s es t) : PairLeveled cfg a b t := by
  apply run.invariant (PairLeveled cfg a b) leveled
  intro t e u leveled _ moved
  exact leveled_step distinct leveled moved

theorem run_behind {v₀ : Int} (distinct : a ≠ b) (leveled : PairLeveled cfg a b s)
    (behind : PairBehind v₀ a b s) (run : Run (step cfg) Positive s es t) :
    PairBehind v₀ a b t := by
  refine (run.invariant (fun t => PairLeveled cfg a b t ∧ PairBehind v₀ a b t) ⟨leveled, behind⟩ ?_).2
  intro t e u before positive moved
  exact ⟨leveled_step distinct before.1 moved,
    (behind_step distinct before.1 before.2 positive moved).1⟩

theorem exact_of_start (own : rows a b = some row) : Exact row.friendVal a b (start rows) := by
  intro row' here
  rw [← Option.some.inj (own.symm.trans here)]
  exact (add_zero _).symm

theorem behind_of_start (own : rows a b = some row) : Behind row.friendVal a b (start rows) :=
  ⟨fun row' here => (exact_of_start own row' here).le, fun _ mem => absurd mem List.not_mem_nil⟩

/-- Two friends' rows stay one and miss nothing of what is added, as long as no command writes a row
that has changed since it read it. Where every command adds something, this is the only way. -/
theorem run_exps (distinct : a ≠ b) (own : rows a b = some row) (other : rows b a = some row)
    (level : IsGreatest (cfg.reached row.friendVal) row.friendLv)
    (run : Run (step cfg) anyStep (start rows) es s) (finished : ∀ c ∈ s.cmds, c.pc = .done) :
    (Run (step cfg) (Fresh a b) (start rows) es s → Agree cfg row.friendVal a b s) ∧
    (Run (step cfg) Positive (start rows) es s →
      (Run (step cfg) (Fresh a b) (start rows) es s ↔ Agree cfg row.friendVal a b s)) := by
  have leveled := leveled_start own other level
  have exact_ : PairExact row.friendVal a b (start rows) :=
    ⟨exact_of_start own, exact_of_start other⟩
  rw [agree_iff (run_leveled distinct leveled run) finished]
  constructor
  · intro fresh
    refine (fresh.invariant (fun t => PairLeveled cfg a b t ∧ PairExact row.friendVal a b t)
      ⟨leveled, exact_⟩ ?_).2
    intro t e u before fresh moved
    exact ⟨leveled_step distinct before.1 moved, exact_step distinct before.1 before.2 fresh moved⟩
  · intro positive
    apply positive.holds_iff (PairExact row.friendVal a b) exact_
    intro front t e u before positive moved
    have leveled_t := run_leveled distinct leveled before
    have behind := run_behind distinct leveled ⟨behind_of_start own, behind_of_start other,
      fun _ mem => absurd mem List.not_mem_nil⟩ before
    constructor
    · exact (behind_step distinct leveled_t behind positive moved).2
    · exact fun both => exact_step distinct leveled_t both.1 both.2 moved

/-- The levels of the game. -/
def valueLevels : FriendLevels := ⟨[2, 6, 14, 40, 100], by decide⟩

/-- The rows of two new friends. -/
def newFriends (a b : UserId) : UserId → UserId → Option Friendship :=
  fun id uId => if (id, uId) = (a, b) ∨ (id, uId) = (b, a) then some ⟨0, 0⟩ else none

theorem new_leveled : IsGreatest (valueLevels.reached 0) 0 := by
  apply FriendLevels.isGreatest_reached (.inl rfl)
  intro exp found
  obtain rfl := Option.some.inj found
  decide

def oneByOne : List ExpEvent :=
  [.FriendExpAdd 1 2 1, .resume 0, .resume 0, .resume 0, .resume 0,
    .FriendExpAdd 2 1 3, .resume 1, .resume 1, .resume 1, .resume 1]

theorem run_exps_twice : ∃ s, Run (step valueLevels) (Fresh 1 2) (start (newFriends 1 2)) oneByOne s ∧
    Agree valueLevels 0 1 2 s ∧ s.rows 2 1 = some ⟨4, 1⟩ := by
  obtain ⟨s, run, finished, row⟩ := run_of_guarded_any (step valueLevels) (Fresh 1 2)
    (start (newFriends 1 2)) oneByOne
    (fun s => (∀ c ∈ s.cmds, c.pc = .done) ∧ s.rows 2 1 = some ⟨4, 1⟩) (by decide +kernel)
  exact ⟨s, run, (run_exps (by decide) rfl rfl new_leveled (run.mono fun _ _ _ => trivial)
    finished).1 run, row⟩

/-- Each of the two friends gives the other a present at the same time. -/
def atOnce : List ExpEvent :=
  [.FriendExpAdd 1 2 1, .FriendExpAdd 2 1 1, .resume 0, .resume 1, .resume 1, .resume 1, .resume 1,
    .resume 0, .resume 0, .resume 0]

/-- The value is one in the one row and two in the other. -/
theorem exps_fail : ¬∀ (cfg : FriendLevels) (rows : UserId → UserId → Option Friendship)
    (row : Friendship) (a b : UserId) (es : List ExpEvent) (s : FriendExpState), a ≠ b →
    rows a b = some row → rows b a = some row →
    IsGreatest (cfg.reached row.friendVal) row.friendLv →
    Run (step cfg) anyStep (start rows) es s → (∀ c ∈ s.cmds, c.pc = .done) →
    Agree cfg row.friendVal a b s := by
  intro all
  obtain ⟨s, run, finished, drift⟩ := run_of_exec_any (step valueLevels) (start (newFriends 1 2))
    atOnce (fun s => (∀ c ∈ s.cmds, c.pc = .done) ∧ s.rows 1 2 = some ⟨1, 0⟩ ∧
      s.rows 2 1 = some ⟨2, 1⟩) (by decide +kernel)
  obtain ⟨row, own, other, _⟩ :=
    all valueLevels _ ⟨0, 0⟩ 1 2 _ s (by decide) rfl rfl new_leveled run finished
  rw [drift.1] at own
  rw [drift.2] at other
  nomatch own.trans other.symm

end Runs

end FriendExpState

end HuluLandlord.Services
