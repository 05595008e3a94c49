import HuluLandlord.Table
import HuluLandlord.Transition

/-!
The recent opponents of a user. A finished game writes its opponents into a table by id, in the
cache and in the row of the user. A table of more than 26 objects is trimmed before, by the
front of the objects ordered by `-obj.dt`: by the newest.
-/
namespace HuluLandlord.Agent.RecentGame
open Transition

section Model
variable {κ δ : Type*}

/-- An entry of `dataArr`. -/
structure GameData (κ δ : Type*) where
  id : κ
  data : δ
  playerType : Nat
  deriving DecidableEq, Repr

structure Recent (κ δ : Type*) where
  id : κ
  data : δ
  gameType : Nat
  roomLevel : Nat
  playerType : Nat
  dt : Nat
  deriving DecidableEq, Repr

/-- The arguments of `addRecentGameFriend`. -/
structure Game (κ δ : Type*) where
  dataArr : List (GameData κ δ)
  gameType : Nat
  roomLevel : Nat
  dt : Nat
  deriving DecidableEq, Repr

def Game.met (g : Game κ δ) : List κ := g.dataArr.map GameData.id

/-- A table with one object under an id. -/
structure RecentDatas (κ δ : Type*) where
  objs : List (Recent κ δ)
  keys : (objs.map Recent.id).Nodup

variable [DecidableEq κ]

namespace RecentDatas

def erase (datas : RecentDatas κ δ) (id : κ) : RecentDatas κ δ where
  objs := datas.objs.filter fun obj => obj.id ≠ id
  keys := datas.keys.sublist (List.filter_sublist.map Recent.id)

def set (datas : RecentDatas κ δ) (obj : Recent κ δ) : RecentDatas κ δ where
  objs := obj :: (datas.erase obj.id).objs
  keys := by
    refine List.nodup_cons.mpr ⟨fun mem => ?_, (datas.erase obj.id).keys⟩
    obtain ⟨other, kept, same⟩ := List.mem_map.mp mem
    exact of_decide_eq_true (List.mem_filter.mp kept).2 same

def eraseAll (datas : RecentDatas κ δ) (arr : List (Recent κ δ)) : RecentDatas κ δ :=
  arr.foldl (fun datas value => datas.erase value.id) datas

def setAll (datas : RecentDatas κ δ) (g : Game κ δ) : RecentDatas κ δ :=
  g.dataArr.foldl (fun datas data =>
    datas.set ⟨data.id, data.data, g.gameType, g.roomLevel, data.playerType, g.dt⟩) datas

end RecentDatas

/-- The cache of the agent and the row of `UserFriendOther`; the time of the last game. -/
structure Recents (κ δ : Type*) where
  recentGameFriendDatas : RecentDatas κ δ
  row : RecentDatas κ δ
  now : Nat

/-- What `arrayx.orderBy` may leave of the objects of the table: the sort is not stable. -/
def Ordered (datas : RecentDatas κ δ) (arr : List (Recent κ δ)) : Prop :=
  arr.Perm datas.objs ∧ arr.Pairwise fun a b => -(a.dt : Int) ≤ -(b.dt : Int)

def addRecentGameFriend (s : Recents κ δ) (g : Game κ δ) (arr : List (Recent κ δ)) :
    Recents κ δ :=
  let gone := if s.recentGameFriendDatas.objs.length > 26 then arr.take (5 + g.dataArr.length)
    else []
  { recentGameFriendDatas := (s.recentGameFriendDatas.eraseAll gone).setAll g
    row := (s.row.eraseAll gone).setAll g
    now := g.dt }

/-- A finished game with the order the objects are sorted in, or a new agent. -/
inductive Event (κ δ : Type*)
  | game (g : Game κ δ) (arr : List (Recent κ δ))
  | init

def step (s : Recents κ δ) : Event κ δ → Option (Recents κ δ)
  | .game g arr => some (addRecentGameFriend s g arr)
  | .init => some { s with recentGameFriendDatas := s.row }

/-- Games come in the order of their times. -/
def Proper (s : Recents κ δ) : Event κ δ → Prop
  | .game g arr => s.now ≤ g.dt ∧
      (s.recentGameFriendDatas.objs.length > 26 → Ordered s.recentGameFriendDatas arr)
  | .init => True

/-- No game finds a table that it trims. -/
def Untrimmed (s : Recents κ δ) (e : Event κ δ) : Prop :=
  Proper s e ∧ ∀ g arr, e = .game g arr → s.recentGameFriendDatas.objs.length ≤ 26

def emptyDatas : RecentDatas κ δ := ⟨[], List.nodup_nil⟩

def start : Recents κ δ := ⟨emptyDatas, emptyDatas, 0⟩

def games (es : List (Event κ δ)) : List (Game κ δ) := es.filterMap fun
  | .game g _ => some g
  | .init => none

def lastGame (gs : List (Game κ δ)) (id : κ) : Option (Game κ δ) :=
  (gs.filter fun g => id ∈ g.met).getLast?

/-- The other opponents met in later games. -/
def others (g : Game κ δ) (later : List (Game κ δ)) : List κ :=
  ((later.flatMap Game.met).filter fun id => id ∉ g.met).dedup

/-- What the record is for. -/
structure Keeps (gs : List (Game κ δ)) (s : Recents κ δ) : Prop where
  recent : ∀ front g later, gs = front ++ g :: later → (others g later).length < 20 →
    ∀ id ∈ g.met, ∃ obj ∈ s.recentGameFriendDatas.objs, obj.id = id
  times : ∀ obj ∈ s.recentGameFriendDatas.objs,
    ∃ g, lastGame gs obj.id = some g ∧ obj.dt = g.dt
  bounded : ∀ k, (∀ g ∈ gs, g.dataArr.length ≤ k) →
    s.recentGameFriendDatas.objs.length ≤ 26 + k
  stored : s.row = s.recentGameFriendDatas

/-- Of the objects of a table those that a step drops are no newer than those it keeps. -/
def DropsOldest (s t : Recents κ δ) : Prop :=
  ∀ x ∈ s.recentGameFriendDatas.objs, (∀ z ∈ t.recentGameFriendDatas.objs, z.id ≠ x.id) →
    ∀ y ∈ s.recentGameFriendDatas.objs, (∃ z ∈ t.recentGameFriendDatas.objs, z.id = y.id) →
      x.dt ≤ y.dt

end Model

section Datas
variable {κ δ : Type*} [DecidableEq κ] {datas : RecentDatas κ δ} {g : Game κ δ}
variable {x : Recent κ δ} {id : κ}

theorem mem_erase : x ∈ (datas.erase id).objs ↔ x ∈ datas.objs ∧ x.id ≠ id := by
  rw [RecentDatas.erase, List.mem_filter, decide_eq_true_iff]

theorem mem_set {obj : Recent κ δ} :
    x ∈ (datas.set obj).objs ↔ x = obj ∨ x ∈ datas.objs ∧ x.id ≠ obj.id := by
  rw [RecentDatas.set, List.mem_cons, mem_erase]

theorem length_set {obj : Recent κ δ} :
    (datas.set obj).objs.length ≤ datas.objs.length + 1 :=
  Nat.succ_le_succ (List.length_filter_le _ _)

theorem eraseAll_objs (datas : RecentDatas κ δ) (arr : List (Recent κ δ)) :
    (datas.eraseAll arr).objs = datas.objs.filter fun obj => obj.id ∉ arr.map Recent.id := by
  induction arr generalizing datas with
  | nil => simp [RecentDatas.eraseAll]
  | cons value arr ih =>
      rw [RecentDatas.eraseAll, List.foldl_cons, ← RecentDatas.eraseAll, ih, RecentDatas.erase,
        List.filter_filter]
      refine List.filter_congr fun obj _ => ?_
      simp only [List.map_cons, List.mem_cons, not_or, Bool.decide_and, decide_not, ne_eq,
        Bool.and_comm]

/-- What a game writes: an object for each opponent, the others stay. -/
theorem mem_setAll : x ∈ (datas.setAll g).objs →
    x.id ∈ g.met ∧ x.dt = g.dt ∨ x.id ∉ g.met ∧ x ∈ datas.objs := by
  obtain ⟨dataArr, gameType, roomLevel, dt⟩ := g
  induction dataArr generalizing datas with
  | nil => exact fun mem => .inr ⟨List.not_mem_nil, mem⟩
  | cons data dataArr ih =>
      intro mem
      cases ih mem with
      | inl written => exact .inl ⟨List.mem_cons_of_mem _ written.1, written.2⟩
      | inr kept =>
          obtain rfl | others := mem_set.mp kept.2
          · exact .inl ⟨List.mem_cons_self, rfl⟩
          · exact .inr ⟨fun listed => (List.mem_cons.mp listed).elim others.2 kept.1, others.1⟩

theorem setAll_keeps (present : ∃ x ∈ datas.objs, x.id = id) :
    ∃ x ∈ (datas.setAll g).objs, x.id = id := by
  obtain ⟨dataArr, gameType, roomLevel, dt⟩ := g
  induction dataArr generalizing datas with
  | nil => exact present
  | cons data dataArr ih =>
      refine ih ?_
      obtain ⟨x, mem, rfl⟩ := present
      by_cases same : x.id = data.id
      · exact ⟨_, mem_set.mpr (.inl rfl), same.symm⟩
      · exact ⟨x, mem_set.mpr (.inr ⟨mem, same⟩), rfl⟩

theorem setAll_writes (met : id ∈ g.met) : ∃ x ∈ (datas.setAll g).objs, x.id = id := by
  obtain ⟨dataArr, gameType, roomLevel, dt⟩ := g
  induction dataArr generalizing datas with
  | nil => exact absurd met List.not_mem_nil
  | cons data dataArr ih =>
      by_cases here : id = data.id
      · exact setAll_keeps (g := ⟨dataArr, gameType, roomLevel, dt⟩)
          ⟨_, mem_set.mpr (.inl rfl), here.symm⟩
      · exact ih ((List.mem_cons.mp met).resolve_left here)

theorem length_setAll :
    (datas.setAll g).objs.length ≤ datas.objs.length + g.dataArr.length := by
  obtain ⟨dataArr, gameType, roomLevel, dt⟩ := g
  induction dataArr generalizing datas with
  | nil => exact le_refl _
  | cons data dataArr ih =>
      exact ih.trans ((Nat.add_le_add_right length_set _).trans
        (Nat.succ_add_eq_add_succ _ _).le)

/-- The front of the ordered objects goes. -/
theorem length_eraseAll {arr : List (Recent κ δ)} (perm : arr.Perm datas.objs) (k : Nat) :
    (datas.eraseAll (arr.take k)).objs.length ≤ datas.objs.length - k := by
  have parts : ∀ p, arr.filter p = (arr.take k).filter p ++ (arr.drop k).filter p := fun p => by
    rw [← List.filter_append, List.take_append_drop]
  have gone : (arr.take k).filter (fun obj => obj.id ∉ (arr.take k).map Recent.id) = [] :=
    List.filter_eq_nil_iff.mpr fun obj mem listed =>
      of_decide_eq_true listed (List.mem_map_of_mem mem)
  rw [eraseAll_objs, ← (perm.filter _).length_eq, parts, gone, List.nil_append,
    ← perm.length_eq, ← List.length_drop]
  exact List.length_filter_le _ _

end Datas

section Runs
variable {κ δ : Type*} [DecidableEq κ] {s t : Recents κ δ} {es : List (Event κ δ)}
variable {gs : List (Game κ δ)} {g : Game κ δ} {arr : List (Recent κ δ)} {id : κ}

theorem games_snoc_game : games (es ++ [.game g arr]) = games es ++ [g] := by
  simp [games]

theorem games_snoc_init : games (es ++ [.init]) = games es := by
  simp [games]

theorem lastGame_snoc_met (met : id ∈ g.met) : lastGame (gs ++ [g]) id = some g := by
  rw [lastGame, Table.filter_snoc_pos (by simpa using met), List.getLast?_concat]

theorem lastGame_snoc_other (other : id ∉ g.met) : lastGame (gs ++ [g]) id = lastGame gs id := by
  rw [lastGame, Table.filter_snoc_neg (by simpa using other), lastGame]

/-- What holds of a table whether or not games trim it. -/
structure Sound (gs : List (Game κ δ)) (s : Recents κ δ) : Prop where
  times : ∀ obj ∈ s.recentGameFriendDatas.objs,
    ∃ g, lastGame gs obj.id = some g ∧ obj.dt = g.dt
  bounded : ∀ k, (∀ g ∈ gs, g.dataArr.length ≤ k) →
    s.recentGameFriendDatas.objs.length ≤ 26 + k
  stored : s.row = s.recentGameFriendDatas

theorem length_addRecentGameFriend (proper : Proper s (.game g arr)) {k : Nat}
    (few : g.dataArr.length ≤ k) (bounded : s.recentGameFriendDatas.objs.length ≤ 26 + k) :
    (addRecentGameFriend s g arr).recentGameFriendDatas.objs.length ≤ 26 + k := by
  refine length_setAll.trans ?_
  split
  · rename_i full
    have trimmed := length_eraseAll (proper.2 full).1 (5 + g.dataArr.length)
    omega
  · rename_i room
    have kept : (s.recentGameFriendDatas.eraseAll []).objs = s.recentGameFriendDatas.objs := rfl
    rw [kept]
    omega

theorem Sound.game (sound : Sound gs s) (proper : Proper s (.game g arr)) :
    Sound (gs ++ [g]) (addRecentGameFriend s g arr) := by
  refine ⟨fun obj mem => ?_, fun k few => ?_, ?_⟩
  · cases mem_setAll mem with
    | inl written => exact ⟨g, lastGame_snoc_met written.1, written.2⟩
    | inr kept =>
        rw [lastGame_snoc_other kept.1]
        refine sound.times obj ?_
        rw [eraseAll_objs] at kept
        exact (List.mem_filter.mp kept.2).1
  · exact length_addRecentGameFriend proper (few g (by simp))
      (sound.bounded k fun g mem => few g (by simp [mem]))
  · simp only [addRecentGameFriend, sound.stored]

theorem run_sound (run : Run step Proper start es s) : Sound (games es) s := by
  induction run with
  | refl => exact ⟨fun obj mem => absurd mem List.not_mem_nil, fun k _ => Nat.zero_le _, rfl⟩
  | @next es t u e before proper moved ih =>
      cases e with
      | game g arr =>
          obtain rfl := Option.some.inj moved
          rw [games_snoc_game]
          exact ih.game proper
      | init =>
          obtain rfl := Option.some.inj moved
          rw [games_snoc_init]
          exact ⟨ih.stored ▸ ih.times, ih.stored ▸ ih.bounded, rfl⟩

/-- Nothing is dropped by a game that finds room. -/
theorem add_untrimmed (room : s.recentGameFriendDatas.objs.length ≤ 26) :
    (addRecentGameFriend s g arr).recentGameFriendDatas = s.recentGameFriendDatas.setAll g := by
  simp only [addRecentGameFriend, if_neg (not_lt.mpr room)]
  rfl

theorem run_met (run : Run step Untrimmed start es s) :
    Run step Proper start es s ∧ ∀ g ∈ games es, ∀ id ∈ g.met,
      ∃ obj ∈ s.recentGameFriendDatas.objs, obj.id = id := by
  induction run with
  | refl => exact ⟨.refl, fun g mem => absurd mem List.not_mem_nil⟩
  | @next es t u e before guard moved ih =>
      obtain ⟨proper, met⟩ := ih
      refine ⟨.next proper guard.1 moved, ?_⟩
      cases e with
      | game g arr =>
          obtain rfl := Option.some.inj moved
          rw [games_snoc_game, add_untrimmed (guard.2 g arr rfl)]
          intro g' mem id listed
          rcases List.mem_append.mp mem with earlier | last
          · exact setAll_keeps (met g' earlier id listed)
          · obtain rfl := List.mem_singleton.mp last
            exact setAll_writes listed
      | init =>
          obtain rfl := Option.some.inj moved
          rw [games_snoc_init]
          exact (run_sound proper).stored ▸ met

/-- As long as no game finds more than 26 objects, the record keeps what it is for. -/
theorem run_keeps (run : Run step Untrimmed start es s) :
    Keeps (games es) s ∧ ∀ e t, Untrimmed s e → step s e = some t → DropsOldest s t := by
  obtain ⟨proper, met⟩ := run_met run
  have sound := run_sound proper
  refine ⟨⟨?_, sound.times, sound.bounded, sound.stored⟩, fun e t guard moved x mem dropped => ?_⟩
  · intro front g later split _
    exact met g (by simp [split])
  · cases e with
    | game g arr =>
        obtain rfl := Option.some.inj moved
        rw [add_untrimmed (guard.2 g arr rfl)] at dropped
        obtain ⟨z, kept, same⟩ := @setAll_keeps _ _ _ _ g x.id ⟨x, mem, rfl⟩
        exact absurd same (dropped z kept)
    | init =>
        obtain rfl := Option.some.inj moved
        exact absurd rfl (dropped x (sound.stored.symm ▸ mem))

instance [DecidableEq δ] (datas : RecentDatas κ δ) (arr : List (Recent κ δ)) :
    Decidable (Ordered datas arr) :=
  inferInstanceAs (Decidable (_ ∧ _))

instance [DecidableEq δ] (s : Recents κ δ) (e : Event κ δ) : Decidable (Proper s e) :=
  match e with
  | .game g arr =>
      inferInstanceAs (Decidable (s.now ≤ g.dt ∧
        (s.recentGameFriendDatas.objs.length > 26 → Ordered s.recentGameFriendDatas arr)))
  | .init => inferInstanceAs (Decidable True)

end Runs

/-- The game number `i` of a user, against three users he has not met before. -/
def newOpponents (i : Nat) : Game Nat Unit :=
  ⟨[⟨3 * i, (), 0⟩, ⟨3 * i + 1, (), 0⟩, ⟨3 * i + 2, (), 0⟩], 3, 1, i⟩

/-- The objects of the first `n` of these games, the newest first. -/
def newestFirst (n : Nat) : List (Recent Nat Unit) :=
  (List.range n).reverse.flatMap fun i =>
    (newOpponents i).dataArr.map fun data => ⟨data.id, (), 3, 1, 0, i⟩

theorem run_keeps_first : Keeps [newOpponents 0] (addRecentGameFriend start (newOpponents 0) []) ∧
    DropsOldest (addRecentGameFriend start (newOpponents 0) [])
      (addRecentGameFriend start (newOpponents 0) []) := by
  have run : Run step Untrimmed start [.game (newOpponents 0) []]
      (addRecentGameFriend start (newOpponents 0) []) :=
    .next .refl ⟨⟨Nat.zero_le _, fun full => absurd full (by decide)⟩, fun _ _ _ => by decide⟩ rfl
  have kept := run_keeps run
  exact ⟨kept.1, kept.2 .init _ ⟨trivial, nofun⟩ rfl⟩

/-- The tenth game against three new opponents drops those of the ninth. -/
theorem record_drops_newest : ∃ es s, Run step Proper (start : Recents Nat Unit) es s ∧
    ¬Keeps (games es) s := by
  obtain ⟨s, run, dropped⟩ := run_of_guarded_any step Proper (start : Recents Nat Unit)
    ((List.range 10).map fun i => .game (newOpponents i) (if i = 9 then newestFirst 9 else []))
    (fun s => ∀ obj ∈ s.recentGameFriendDatas.objs, obj.id ≠ 24) (by decide)
  refine ⟨_, s, run, fun keeps => ?_⟩
  obtain ⟨obj, mem, same⟩ := keeps.recent ((List.range 8).map newOpponents) (newOpponents 8)
    [newOpponents 9] (by decide) (by decide) 24 (by decide)
  exact dropped obj mem same

end HuluLandlord.Agent.RecentGame
