import HuluLandlord.Define
import HuluLandlord.Transition
import Mathlib.Data.Finmap

/-!
The users that are online. An agent reports its user's login and logout to the manager, which keeps a table of
the agents, by user, and beside it a counter.
-/
namespace HuluLandlord.Services
open Transition

abbrev AgentAddr := Nat

structure AgentMgr where
  players : Finmap fun _ : UserId => AgentAddr
  onlineNum : Int

/-- A logout may come without a user. -/
inductive AgentMsg
  | PlayerLogin (id : UserId) (p_agent : AgentAddr)
  | PlayerLogout (id : Option UserId)
  deriving DecidableEq, Repr

namespace AgentMgr

/-- Whether the user is there already is not asked. -/
def PlayerLogin (s : AgentMgr) (id : UserId) (p_agent : AgentAddr) : AgentMgr :=
  { s with players := s.players.insert id p_agent, onlineNum := s.onlineNum + 1 }

def PlayerLogout (s : AgentMgr) (id : Option UserId) : AgentMgr :=
  match id with
  | none => s
  | some id =>
      if (s.players.lookup id).isSome then
        { s with players := s.players.erase id, onlineNum := s.onlineNum - 1 }
      else s

def GetPlayerOnlineNum (s : AgentMgr) : Int := s.onlineNum

def step (s : AgentMgr) : AgentMsg → Option AgentMgr
  | .PlayerLogin id p_agent => some (s.PlayerLogin id p_agent)
  | .PlayerLogout id => some (s.PlayerLogout id)

def start : AgentMgr := ⟨∅, 0⟩

/-- The number of users that are registered. -/
def registered (s : AgentMgr) : Nat := s.players.keys.card

structure Counted (s : AgentMgr) : Prop where
  exactly : s.GetPlayerOnlineNum = s.registered
  nonneg : 0 ≤ s.GetPlayerOnlineNum

/-- Nobody logs in who is registered. -/
def NewLogin (s : AgentMgr) : AgentMsg → Prop
  | .PlayerLogin id _ => id ∉ s.players
  | .PlayerLogout _ => True

/-- What the counter is ahead of the table. -/
def surplus (s : AgentMgr) : Int := s.onlineNum - s.registered

section Counting
variable {s t : AgentMgr} {id : UserId} {p_agent : AgentAddr} {e : AgentMsg} {es : List AgentMsg}

theorem keys_insert {m : Finmap fun _ : UserId => AgentAddr} :
    (m.insert id p_agent).keys = insert id m.keys := by
  ext other
  rw [Finmap.mem_keys, Finmap.mem_insert, Finset.mem_insert, Finmap.mem_keys]

theorem surplus_login :
    (s.PlayerLogin id p_agent).surplus = s.surplus + if id ∈ s.players then 1 else 0 := by
  simp only [surplus, registered, PlayerLogin, keys_insert]
  split
  · rename_i known
    rw [Finset.insert_eq_of_mem (Finmap.mem_keys.mpr known)]
    omega
  · rename_i new
    rw [Finset.card_insert_of_notMem (mt Finmap.mem_keys.mp new)]
    omega

theorem surplus_logout (id : Option UserId) : (s.PlayerLogout id).surplus = s.surplus := by
  cases id with
  | none => rfl
  | some id =>
      rw [PlayerLogout]
      split
      · rename_i known
        have mem : id ∈ s.players.keys := Finmap.mem_keys.mpr (Finmap.lookup_isSome.mp known)
        have some_ : 0 < s.players.keys.card := Finset.card_pos.mpr ⟨id, mem⟩
        simp only [surplus, registered, Finmap.keys_erase, Finset.card_erase_of_mem mem]
        omega
      · rfl

/-- The counter is never behind. -/
theorem surplus_nonneg (before : 0 ≤ s.surplus) (moved : s.step e = some t) : 0 ≤ t.surplus := by
  cases e with
  | PlayerLogin id p_agent =>
      obtain rfl := Option.some.inj moved
      rw [surplus_login]
      split
      · omega
      · omega
  | PlayerLogout id =>
      obtain rfl := Option.some.inj moved
      rwa [surplus_logout]

theorem counted_iff : s.Counted ↔ s.surplus = 0 := by
  constructor
  · intro counted
    exact sub_eq_zero.mpr counted.exactly
  · intro level
    have exactly : s.GetPlayerOnlineNum = s.registered := sub_eq_zero.mp level
    exact ⟨exactly, exactly ▸ Int.natCast_nonneg _⟩

theorem counted_step (before : 0 ≤ s.surplus) (moved : s.step e = some t) :
    t.Counted ↔ s.Counted ∧ s.NewLogin e := by
  rw [counted_iff, counted_iff]
  cases e with
  | PlayerLogin id p_agent =>
      obtain rfl := Option.some.inj moved
      rw [surplus_login, NewLogin]
      split
      · rename_i known
        refine iff_of_false (by omega) fun both => both.2 known
      · rename_i new
        rw [add_zero, and_iff_left new]
  | PlayerLogout id =>
      obtain rfl := Option.some.inj moved
      rw [surplus_logout, NewLogin, and_true]

/-- The counter is right after the runs in which nobody logs in twice without a logout between. -/
theorem run_online (run : Run step anyStep start es s) : Run step NewLogin start es s ↔ s.Counted := by
  refine Run.holds_iff Counted (counted_iff.mpr rfl) (fun front t e u earlier _ moved => ?_) run
  have ahead : 0 ≤ t.surplus :=
    earlier.invariant (fun s => 0 ≤ s.surplus) le_rfl fun _ _ _ before _ moved => surplus_nonneg before moved
  exact counted_step ahead moved

end Counting

/-- Two users log in, and one of them logs out, twice. -/
theorem run_online_two : ∃ s, Run step anyStep start
      [.PlayerLogin 1 10, .PlayerLogin 2 20, .PlayerLogout (some 1), .PlayerLogout (some 1)] s ∧
    s.onlineNum = 1 ∧ (Run step NewLogin start
      [.PlayerLogin 1 10, .PlayerLogin 2 20, .PlayerLogout (some 1), .PlayerLogout (some 1)] s ↔ s.Counted) := by
  obtain ⟨s, run, one⟩ := run_of_exec_any step start
    [.PlayerLogin 1 10, .PlayerLogin 2 20, .PlayerLogout (some 1), .PlayerLogout (some 1)]
    (fun s => s.onlineNum = 1) (by decide)
  exact ⟨s, run, one, run_online run⟩

/-- A user logs in again. -/
theorem online_fail : ¬∀ es s, Run step anyStep start es s → s.Counted := by
  intro all
  obtain ⟨s, run, two, one⟩ := run_of_exec_any step start [.PlayerLogin 1 10, .PlayerLogin 1 10]
    (fun s => s.onlineNum = 2 ∧ s.registered = 1) (by decide)
  have exactly := (all _ s run).exactly
  rw [GetPlayerOnlineNum, two, one] at exactly
  cases exactly

end AgentMgr

end HuluLandlord.Services
