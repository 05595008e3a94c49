import HuluLandlord.Agent.Consume

/-!
The winning streak of a user: the settlement of a game counts it, and a protection item
brings back the one that was lost. Both write the row of the user and tell the client.
What a result brings or takes besides is left open. `results` is what has happened, newest
first, and says by itself what the streaks ought to be.
-/
namespace HuluLandlord.Agent
open Transition

def itemGameProtectWinStreak : ItemId := 125001

/-- A user who has never played has neither field. -/
structure Streaks where
  winStreak : Option Nat
  winStreakLast : Option Nat
  deriving DecidableEq, Repr

inductive GameResult
  | won | lost | restored
  deriving DecidableEq, Repr

structure StreakUser where
  userInfo : Streaks
  stored : Streaks
  client : Streaks
  bag : Bag
  results : List GameResult

/-- `itemArr` is what the result brings or takes; a level without a row has none. -/
inductive StreakEvent
  | game (isWin : Bool) (itemArr : Option (List Entry)) (now : Int)
  | protect
  deriving DecidableEq, Repr

inductive ProtectRet
  | succeed_1 | error_3 | lack_6 | raised
  deriving DecidableEq, Repr

/-- A row, or what the client knows, after an update; a field that is `nil` is not in it. -/
def Streaks.set (row updateData : Streaks) : Streaks where
  winStreak := updateData.winStreak.or row.winStreak
  winStreakLast := updateData.winStreakLast.or row.winStreakLast

/-- The streak after these results, and the one the last loss ended. -/
def streaksOf : List GameResult → Nat × Nat
  | [] => (0, 0)
  | .won :: results => ((streaksOf results).1 + 1, (streaksOf results).2)
  | .lost :: results => (0, (streaksOf results).1)
  | .restored :: results => ((streaksOf results).2, 0)

namespace StreakUser
variable (t : Tables)

/-- The streak in memory goes to the row and to the client. -/
def sync (s : StreakUser) (streaks updateData : Streaks) : StreakUser :=
  { s with
    userInfo := streaks
    stored := s.stored.set updateData
    client := s.client.set updateData }

/-- `gameLvCompute`, up to the level. -/
def gameLvCompute (s : StreakUser) (isWin : Bool) (itemArr : Option (List Entry)) (now : Int) :
    StreakUser :=
  match itemArr with
  | none => s
  | some itemArr =>
      let streaks : Streaks :=
        if isWin then { s.userInfo with winStreak := some (s.userInfo.winStreak.getD 0 + 1) }
        else ⟨some 0, s.userInfo.winStreak⟩
      let s := s.sync streaks streaks
      { s with
        bag := if isWin then s.bag.addList t now itemArr
          else (s.bag.removeList t.items now (some itemArr) 1).1
        results := (if isWin then .won else .lost) :: s.results }

/-- The request; comparing a streak that is `nil` raises. -/
def RoomProtectWinStreak (s : StreakUser) : StreakUser × ProtectRet :=
  match s.userInfo.winStreak with
  | none => (s, .raised)
  | some winStreak =>
      let winStreakLast := s.userInfo.winStreakLast.getD 0
      if winStreak > 0 ∨ winStreakLast ≤ 0 then (s, .error_3)
      else match s.bag.remove t.items itemGameProtectWinStreak 1 with
        | (_, false, _) => (s, .lack_6)
        | (bag, true, _) =>
            let updateData : Streaks := ⟨some winStreak, some winStreakLast⟩
            let s := s.sync ⟨some winStreakLast, some 0⟩ updateData
            ({ s with bag := bag, results := .restored :: s.results }, .succeed_1)

def step (s : StreakUser) (e : StreakEvent) : Option StreakUser :=
  match e with
  | .game isWin itemArr now => some (s.gameLvCompute t isWin itemArr now)
  | .protect => some (s.RoomProtectWinStreak t).1

def start (bag : Bag) : StreakUser := ⟨⟨none, none⟩, ⟨none, none⟩, ⟨none, none⟩, bag, []⟩

/-- The row and the client have what is in memory. -/
def Synced (s : StreakUser) : Prop := s.stored = s.userInfo ∧ s.client = s.userInfo

/-- A streak can be brought back, and the item for it is there. -/
def Restorable (s : StreakUser) : Prop :=
  s.userInfo.winStreak = some 0 ∧ 0 < s.userInfo.winStreakLast.getD 0 ∧
    1 ≤ s.bag.num itemGameProtectWinStreak

def Unrestored (s : StreakUser) (e : StreakEvent) : Prop := e = .protect → ¬s.Restorable

/-- A protection brings back, once, the positive streak that the last game has ended, for one
item. -/
def Protects (s : StreakUser) : Prop :=
  (s.RoomProtectWinStreak t).2 = .succeed_1 →
    let s' := (s.RoomProtectWinStreak t).1
    ∃ results, s.results = .lost :: results ∧ 0 < (streaksOf results).1 ∧
      s'.userInfo = ⟨some (streaksOf results).1, some 0⟩ ∧
      s'.results = .restored :: s.results ∧
      ∀ id, s'.bag.num id = s.bag.num id - if id = itemGameProtectWinStreak then 1 else 0

/-- Memory holds what the results say it should. -/
structure StreakInv (s : StreakUser) : Prop where
  winStreak : s.userInfo.winStreak.getD 0 = (streaksOf s.results).1
  winStreakLast : s.userInfo.winStreakLast.getD 0 = (streaksOf s.results).2
  fresh : s.userInfo.winStreak = none → s.userInfo.winStreakLast = none

section Streaks
variable {t : Tables} {s s' : StreakUser} {bag : Bag} {e : StreakEvent} {es : List StreakEvent}
  {results : List GameResult} {itemArr : List Entry} {now : Int} {isWin : Bool}

/-- Only after a loss is there a streak to bring back and none that runs. -/
theorem streaksOf_lost (ended : (streaksOf results).1 = 0) (lost : 0 < (streaksOf results).2) :
    ∃ before, results = .lost :: before ∧ (streaksOf before).1 = (streaksOf results).2 := by
  cases results with
  | nil => exact absurd lost (Nat.lt_irrefl 0)
  | cons result before =>
      cases result with
      | won => exact absurd ended (Nat.succ_ne_zero _)
      | lost => exact ⟨before, rfl, rfl⟩
      | restored => exact absurd lost (Nat.lt_irrefl 0)

theorem set_whole {row updateData : Streaks} (played : updateData.winStreak ≠ none)
    (last : updateData.winStreakLast = none → row.winStreakLast = none) :
    row.set updateData = updateData := by
  obtain ⟨winStreak, winStreakLast⟩ := updateData
  cases winStreak with
  | none => exact absurd rfl played
  | some n =>
      cases winStreakLast with
      | none => exact congrArg (Streaks.mk (some n)) (last rfl)
      | some m => rfl

/-- A protection succeeds where a streak can be brought back, and only there. -/
theorem protect_restorable (restorable : s.Restorable) :
    ∃ bag k, s.bag.remove t.items itemGameProtectWinStreak 1 = (bag, true, k) ∧
      s.RoomProtectWinStreak t =
        ({ s.sync ⟨some (s.userInfo.winStreakLast.getD 0), some 0⟩
            ⟨some 0, some (s.userInfo.winStreakLast.getD 0)⟩ with
          bag := bag, results := .restored :: s.results }, .succeed_1) := by
  obtain ⟨ended, lost, owned⟩ := restorable
  have checked : ¬((0 : Nat) > 0 ∨ s.userInfo.winStreakLast.getD 0 ≤ 0) := by omega
  rw [Bag.num] at owned
  cases found : s.bag.find itemGameProtectWinStreak with
  | none => simp [found] at owned
  | some n =>
      have enough : n ≥ 1 := by simpa [found] using owned
      have removed : s.bag.remove t.items itemGameProtectWinStreak 1 =
          (s.bag.setNum itemGameProtectWinStreak (n - 1), true, n - 1) := by
        simp [Bag.remove, Bag._remove, found, enough]
      refine ⟨_, _, removed, ?_⟩
      simp only [RoomProtectWinStreak, ended, checked, if_false, removed]
      rfl

theorem protect_refused (refused : ¬s.Restorable) :
    (s.RoomProtectWinStreak t).1 = s ∧ (s.RoomProtectWinStreak t).2 ≠ .succeed_1 := by
  simp only [RoomProtectWinStreak]
  cases streak : s.userInfo.winStreak with
  | none => exact ⟨rfl, by rintro ⟨⟩⟩
  | some winStreak =>
      simp only
      by_cases checked : winStreak > 0 ∨ s.userInfo.winStreakLast.getD 0 ≤ 0
      · rw [if_pos checked]
        exact ⟨rfl, by rintro ⟨⟩⟩
      rw [if_neg checked]
      have poor : ¬1 ≤ s.bag.num itemGameProtectWinStreak := fun owned =>
        refused ⟨by rw [streak, Option.some.injEq]; omega, by omega, owned⟩
      have kept : ∃ k, s.bag.remove t.items itemGameProtectWinStreak 1 = (s.bag, false, k) := by
        rw [Bag.num] at poor
        cases found : s.bag.find itemGameProtectWinStreak with
        | none => exact ⟨0, by simp [Bag.remove, Bag._remove, found]⟩
        | some n =>
            have short : ¬n ≥ 1 := by simpa [found] using poor
            exact ⟨0, by simp [Bag.remove, Bag._remove, found, short]⟩
      obtain ⟨k, kept⟩ := kept
      rw [kept]
      exact ⟨rfl, by rintro ⟨⟩⟩

theorem gameLvCompute_streaks (inv : s.StreakInv) :
    (s.gameLvCompute t isWin (some itemArr) now).StreakInv := by
  cases isWin with
  | true =>
      refine ⟨?_, inv.winStreakLast, nofun⟩
      exact congrArg Nat.succ inv.winStreak
  | false => exact ⟨rfl, inv.winStreak, nofun⟩

theorem gameLvCompute_synced (inv : s.StreakInv) (synced : s.Synced) :
    (s.gameLvCompute t isWin (some itemArr) now).Synced := by
  obtain ⟨stored, client⟩ := synced
  have whole : ∀ updateData : Streaks, updateData.winStreak ≠ none →
      (updateData.winStreakLast = none → s.userInfo.winStreakLast = none) →
      s.stored.set updateData = updateData ∧ s.client.set updateData = updateData := by
    intro updateData played last
    rw [stored, client]
    exact ⟨set_whole played last, set_whole played last⟩
  cases isWin with
  | true => exact whole _ (Option.some_ne_none _) fun none => none
  | false => exact whole _ (Option.some_ne_none _) inv.fresh

theorem streaks_step (inv : s.StreakInv) (moved : s.step t e = some s') : s'.StreakInv := by
  cases e with
  | game isWin itemArr now =>
      obtain rfl := Option.some.inj moved
      cases itemArr with
      | none => exact inv
      | some itemArr => exact gameLvCompute_streaks inv
  | protect =>
      obtain rfl := Option.some.inj moved
      by_cases restorable : s.Restorable
      · obtain ⟨bag, k, _, made⟩ := @protect_restorable t s restorable
        rw [made]
        exact ⟨inv.winStreakLast, rfl, nofun⟩
      · rw [(protect_refused restorable).1]
        exact inv

theorem synced_step (inv : s.StreakInv) (synced : s.Synced) (moved : s.step t e = some s') :
    s'.Synced ↔ s.Unrestored e := by
  cases e with
  | game isWin itemArr now =>
      obtain rfl := Option.some.inj moved
      refine iff_of_true ?_ nofun
      cases itemArr with
      | none => exact synced
      | some itemArr => exact gameLvCompute_synced inv synced
  | protect =>
      obtain rfl := Option.some.inj moved
      by_cases restorable : s.Restorable
      · obtain ⟨bag, k, _, made⟩ := @protect_restorable t s restorable
        refine iff_of_false ?_ fun none => none rfl restorable
        rw [made]
        -- the row keeps the streak that has just been cleared in memory
        intro same
        have last : some (s.userInfo.winStreakLast.getD 0) = some 0 :=
          congrArg Streaks.winStreakLast same.1
        have lost := restorable.2.1
        rw [Option.some.inj last] at lost
        exact Nat.lt_irrefl 0 lost
      · rw [(protect_refused restorable).1]
        exact iff_of_true synced fun _ => restorable

theorem protects_streaks (inv : s.StreakInv) : s.Protects t := by
  intro succeeded
  by_cases restorable : s.Restorable
  · obtain ⟨bag, k, removed, made⟩ := @protect_restorable t s restorable
    obtain ⟨ended, lost, _⟩ := restorable
    have streak : (streaksOf s.results).1 = 0 := by
      rw [← inv.winStreak, ended]
      rfl
    obtain ⟨before, after, same⟩ := streaksOf_lost streak (inv.winStreakLast ▸ lost)
    rw [made]
    refine ⟨before, after, ?_, ?_, rfl, ?_⟩
    · rw [same, ← inv.winStreakLast]
      exact lost
    · rw [same, ← inv.winStreakLast]
      rfl
    · exact Bag.num_removed t.items removed (by decide)
  · exact absurd succeeded (protect_refused restorable).2

theorem streaks_start : (start bag).StreakInv := ⟨rfl, rfl, fun _ => rfl⟩

/-- The row and the client agree with memory all along, and protections do what they are for,
if and only if no streak is brought back. -/
theorem winStreak_synced (run : Run (step t) anyStep (start bag) es s) :
    (∀ front s', front <+: es → Run (step t) anyStep (start bag) front s' →
      s'.Synced ∧ s'.Protects t) ↔
      Run (step t) Unrestored (start bag) es s := by
  have inv : ∀ {ok front s'}, Run (step t) ok (start bag) front s' → s'.StreakInv :=
    fun run => run.invariant StreakInv streaks_start fun _ _ _ inv _ moved => streaks_step inv moved
  have exact : Run (step t) Unrestored (start bag) es s ↔
      ∀ front s', front <+: es → Run (step t) anyStep (start bag) front s' → s'.Synced := by
    refine run.always_iff Synced ⟨rfl, rfl⟩ fun front s e s' before moved => ?_
    have kept : s.StreakInv ∧ s.Synced := before.invariant (fun s => s.StreakInv ∧ s.Synced)
      ⟨streaks_start, rfl, rfl⟩ fun s e s' kept guard moved =>
        ⟨streaks_step kept.1 moved, (synced_step kept.1 kept.2 moved).mpr guard⟩
    exact synced_step kept.1 kept.2 moved
  rw [exact]
  constructor
  · intro all front s' part ran
    exact (all front s' part ran).1
  · intro all front s' part ran
    exact ⟨all front s' part ran, protects_streaks (inv ran)⟩

/-- Two games won and one lost, without a protection. -/
theorem winStreak_synced_games :
    ∃ s, Run (step runeTables) anyStep (start (bagOf itemGameProtectWinStreak 1))
        [.game true (some []) 0, .game true (some []) 0, .game false (some []) 0] s ∧
      s.stored = ⟨some 0, some 2⟩ ∧
      ((∀ front s', front <+: [.game true (some []) 0, .game true (some []) 0,
          .game false (some []) 0] →
        Run (step runeTables) anyStep (start (bagOf itemGameProtectWinStreak 1)) front s' →
        s'.Synced ∧ s'.Protects runeTables) ↔
        Run (step runeTables) Unrestored (start (bagOf itemGameProtectWinStreak 1))
          [.game true (some []) 0, .game true (some []) 0, .game false (some []) 0] s) := by
  have run := @run_of_exec _ _ (step runeTables) (start (bagOf itemGameProtectWinStreak 1))
    [.game true (some []) 0, .game true (some []) 0, .game false (some []) 0] _ rfl
  exact ⟨_, run, rfl, winStreak_synced run⟩

/-- A game won, one lost, and the protection: the row keeps `0` and `1`. -/
theorem winStreak_unsynced :
    ¬∀ t bag es s, Run (step t) anyStep (start bag) es s → s.Synced ∧ s.Protects t := by
  intro all
  have run := @run_of_exec _ _ (step runeTables) (start (bagOf itemGameProtectWinStreak 1))
    [.game true (some []) 0, .game false (some []) 0, .protect] _ rfl
  have stored := congrArg Streaks.winStreak (all _ _ _ _ run).1.1
  exact absurd stored (by decide)

end Streaks

end StreakUser

end HuluLandlord.Agent
