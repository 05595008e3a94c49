import HuluLandlord.Match.Mgr

/-!
Who is recorded as matching is queued once, and rooms are made of queued players. What is
kept is stated of the objects that count as queues: those in the table, and while an object
is ticked that one too, which may have left the table before its last level is visited.
-/
namespace HuluLandlord.Match

namespace State

/-- The queue a key and a level lead to. -/
def queueAt (s : State) (place : Text × Nat) : Option (List Player) :=
  (s.MatchQueue place.1).bind fun i => ((s.objs i).queues place.2).map QueueObj.queue

def holds (s : State) (i roomtype : Nat) (p : Player) : Prop :=
  ∃ q, (s.objs i).queues roomtype = some q ∧ p ∈ q.queue

def live (s : State) (i : Nat) : Prop := s.MatchQueue (s.objs i).queueKey = some i

instance (s : State) (i : Nat) : Decidable (s.live i) :=
  inferInstanceAs (Decidable (s.MatchQueue (s.objs i).queueKey = some i))

/-- The tables of players that are in rooms. -/
def roomed (s : State) : List Nat := (s.rooms.flatMap Room.players).map (·.ref)

end State

/-- A room of as many different players as its game takes. -/
structure Room.Full (room : Room) : Prop where
  size : room.players.length = room.max_player
  game : room.max_player = PlayerNumObj room.gametype
  ids : (room.players.map (·.id)).Nodup

structure Kept (conf : Conf) (live : Nat → Prop) (s : State) : Prop where
  key : ∀ k i, s.MatchQueue k = some i → (s.objs i).queueKey = k ∧ live i
  made : ∀ i, live i → i < s.made
  level : ∀ i roomtype q, live i → (s.objs i).queues roomtype = some q →
    roomtype ∈ (levels conf (s.objs i).gameType).map SData.room_type
  member : ∀ i roomtype p, live i → s.holds i roomtype p →
    s.MatchUserArr p.id = some ⟨i, roomtype, p⟩
  entry : ∀ id r, s.MatchUserArr id = some r →
    live r.obj ∧ s.holds r.obj r.roomtype r.player ∧ r.player.id = id
  single : ∀ i roomtype q, live i → (s.objs i).queues roomtype = some q →
    (q.queue.map (·.id)).Nodup
  own : ∀ id r id' r', s.MatchUserArr id = some r → s.MatchUserArr id' = some r' →
    r.player.ref = r'.player.ref → id = id'
  fresh : ∀ id r, s.MatchUserArr id = some r → r.player.ref < s.refs
  apart : ∀ id r, s.MatchUserArr id = some r → r.player.ref ∉ s.roomed
  past : ∀ ref ∈ s.roomed, ref < s.refs
  full : ∀ room ∈ s.rooms, room.Full
  once : s.roomed.Nodup

section Queues
variable {s s' : State} {i j roomtype roomtype' : Nat} {p : Player} {q q' : QueueObj}

@[simp] theorem setQueue_queues : ((s.setQueue i roomtype q).objs j).queues roomtype' =
    if j = i ∧ roomtype' = roomtype then some q else (s.objs j).queues roomtype' := by
  by_cases same : j = i
  · subst same
    by_cases level : roomtype' = roomtype
    · subst level
      simp [State.setQueue]
    · simp [State.setQueue, level]
  · simp [State.setQueue, same]

theorem setQueue_same (f : MatchQueueObj → α)
    (frame : ∀ obj queues, f { obj with queues := queues } = f obj) :
    f ((s.setQueue i roomtype q).objs j) = f (s.objs j) := by
  by_cases same : j = i
  · subst same
    simp [State.setQueue, frame]
  · simp [State.setQueue, same]

@[simp] theorem setQueue_queueKey :
    ((s.setQueue i roomtype q).objs j).queueKey = (s.objs j).queueKey :=
  setQueue_same MatchQueueObj.queueKey fun _ _ => rfl

theorem holds_setQueue : (s.setQueue i roomtype q).holds j roomtype' p ↔
    if j = i ∧ roomtype' = roomtype then p ∈ q.queue else s.holds j roomtype' p := by
  simp only [State.holds, setQueue_queues]
  split
  · simp
  · rfl

end Queues

theorem PlayerNum_pos (obj : MatchQueueObj) : 0 < obj.PlayerNum := by
  simp only [MatchQueueObj.PlayerNum, PlayerNumObj]
  grind

/-- What a group of players leaves behind when it is in no queue any more: rooms of some of
them, or none where they did not go to rooms. -/
structure Matches (s s' : State) (i : Nat) (group : List Player) : Prop where
  objs : s'.objs = s.objs
  recorded : ∀ id, s'.MatchUserArr id =
    if id ∈ group.map (·.id) then none else s.MatchUserArr id
  table : s'.MatchQueue = if group ≠ [] ∧ (s.objs i).isRemoveMatchQueue = true then
    Function.update s.MatchQueue (s.objs i).queueKey none else s.MatchQueue
  refs : s'.refs = s.refs
  made : s'.made = s.made
  rooms : ∃ rooms, s'.rooms = s.rooms ++ rooms ∧ (∀ room ∈ rooms, room.Full) ∧
    ((rooms.flatMap Room.players).map (·.ref)).Subperm (group.map (·.ref))

section Matched
variable {s s' s'' : State} {i roomtype : Nat} {group more : List Player}

theorem Matches.refl (s : State) (i : Nat) : Matches s s i [] := by
  exact ⟨rfl, fun id => by simp, by simp, rfl, rfl, [], by simp, by simp, .refl _⟩

theorem Matches.trans (first : Matches s s' i group) (second : Matches s' s'' i more) :
    Matches s s'' i (group ++ more) := by
  obtain ⟨rooms, whole, full, perm⟩ := first.rooms
  obtain ⟨rooms', whole', full', perm'⟩ := second.rooms
  refine ⟨second.objs.trans first.objs, fun id => ?_, ?_, second.refs.trans first.refs,
    second.made.trans first.made, rooms ++ rooms', ?_, ?_, ?_⟩
  · rw [second.recorded, first.recorded]
    simp only [List.map_append, List.mem_append]
    grind
  · rw [second.table, first.table, first.objs]
    by_cases gone : (s.objs i).isRemoveMatchQueue = true
    · cases group with
      | nil => simp
      | cons p group =>
          cases more with
          | nil => simp [gone]
          | cons p' more => simp [gone]
    · simp [gone]
  · rw [whole', whole, List.append_assoc]
  · intro room mem
    exact (List.mem_append.mp mem).elim (full room) (full' room)
  · rw [List.flatMap_append, List.map_append, List.map_append]
    exact ((List.subperm_append_right _).mpr perm).trans ((List.subperm_append_left _).mpr perm')

/-- The configured order only permutes the players it names. -/
theorem sortPlayers_perm {idArrSort : Option (List Text)} {players : List Player}
    (distinct : (players.map (·.id)).Nodup)
    (named : ∀ ids ∈ idArrSort, ids.length = players.length → ∀ p ∈ players, p.id ∈ ids) :
    (State.sortPlayers idArrSort players).Perm players := by
  cases idArrSort with
  | none => exact .refl _
  | some ids =>
      simp only [State.sortPlayers]
      split
      · rename_i size
        have same : (players.map (·.id)).Perm ids := by
          refine (List.Nodup.subperm distinct fun id mem => ?_).perm_of_length_le ?_
          · obtain ⟨p, here, rfl⟩ := List.mem_map.mp mem
            exact named ids rfl size p here
          · rw [List.length_map, size]
        have found : ∀ p ∈ players, players.find? (fun q => q.id = p.id) = some p := by
          intro p mem
          cases first : players.find? fun q => q.id = p.id with
          | none =>
              have other := List.find?_eq_none.mp first p mem
              simp at other
          | some q =>
              have id := List.find?_some first
              rw [List.inj_on_of_nodup_map distinct (List.mem_of_find?_eq_some first) mem
                (by simpa using id)]
        have whole : (players.map (·.id)).filterMap
            (fun id => players.find? fun q => q.id = id) = players := by
          rw [List.filterMap_map]
          exact (List.filterMap_congr found).trans List.filterMap_some
        exact (same.symm.filterMap _).trans (.of_eq whole)
      · exact .refl _

theorem match_ok_matches {players : List Player} (size : players.length = (s.objs i).PlayerNum)
    (distinct : (players.map (·.id)).Nodup)
    (named : ∀ ids ∈ (s.objs i).idArrSort, ids.length = players.length →
      ∀ p ∈ players, p.id ∈ ids) :
    Matches s (s.match_ok i players roomtype) i players := by
  have perm := sortPlayers_perm distinct named
  have some_players : players ≠ [] := by
    rintro rfl
    have three := PlayerNum_pos (s.objs i)
    rw [← size] at three
    exact Nat.lt_irrefl 0 three
  refine ⟨?_, fun id => ?_, ?_, ?_, ?_, [⟨(s.objs i).gameType, roomtype, (s.objs i).PlayerNum,
    (State.sortPlayers (s.objs i).idArrSort players).map fun p => { p with startDt := none }⟩],
    ?_, ?_, ?_⟩
  · simp only [State.match_ok]
    split
    · rfl
    · rfl
  · have same : id ∈ (State.sortPlayers (s.objs i).idArrSort players).map (·.id) ↔
        id ∈ players.map (·.id) := (perm.map _).mem_iff
    simp only [State.match_ok]
    split
    · simp only [State.dropQueue, same]
    · simp only [same]
  · simp only [State.match_ok]
    split
    · rename_i gone
      rw [if_pos ⟨some_players, gone⟩]
      rfl
    · rename_i kept
      rw [if_neg fun both => kept both.2]
  · simp only [State.match_ok]
    split
    · rfl
    · rfl
  · simp only [State.match_ok]
    split
    · rfl
    · rfl
  · simp only [State.match_ok, State.rooms]
    split
    · simp [State.dropQueue]
    · simp
  · intro room mem
    rw [List.mem_singleton.mp mem]
    refine ⟨?_, rfl, ?_⟩
    · rw [List.length_map, perm.length_eq, size]
    · rw [List.map_map]
      exact ((perm.map fun p => p.id).nodup_iff).mpr distinct
  · rw [List.flatMap_singleton, List.map_map]
    exact (perm.map fun p => p.ref).subperm

theorem matchGroups_matches {n : Nat} {players : List Player}
    (size : players.length = (s.objs i).PlayerNum * n) (distinct : (players.map (·.id)).Nodup)
    (named : ∀ ids ∈ (s.objs i).idArrSort, ids.length = (s.objs i).PlayerNum →
      ∀ p ∈ players, p.id ∈ ids) :
    Matches s (State.matchGroups i roomtype n players s) i players := by
  induction n generalizing s players with
  | zero =>
      rw [List.length_eq_zero_iff.mp size]
      exact .refl s i
  | succ n ih =>
      rw [Nat.mul_succ] at size
      have parts := List.take_append_drop (s.objs i).PlayerNum players
      rw [← parts, List.map_append, List.nodup_append'] at distinct
      have length : (players.take (s.objs i).PlayerNum).length = (s.objs i).PlayerNum := by
        rw [List.length_take, size]
        omega
      have first := @match_ok_matches s i roomtype (players.take (s.objs i).PlayerNum) length
        distinct.1 fun ids some size p mem =>
          named ids some (size.trans length) p (List.mem_of_mem_take mem)
      have rest := @ih (s.match_ok i (players.take (s.objs i).PlayerNum) roomtype)
        (players.drop (s.objs i).PlayerNum)
      rw [first.objs] at rest
      have both := first.trans (rest ?_ distinct.2.1 fun ids some size p mem =>
        named ids some size p (List.mem_of_mem_drop mem))
      · rw [parts] at both
        exact both
      · rw [List.length_drop, size]
        omega

end Matched

/-- What one level of a tick does to its queue: a group of its players leaves for rooms,
and the others stay, in some order. -/
structure Takes (s s' : State) (i roomtype : Nat) (q : QueueObj) (group : List Player) : Prop where
  queue : ∃ q', (group ++ q'.queue).Perm q.queue ∧
    Matches (s.setQueue i roomtype q') s' i group

namespace Kept
variable {conf : Conf} {live : Nat → Prop} {s s' : State} {i roomtype : Nat} {q : QueueObj}
variable {group : List Player} {p : Player} {id : Text} {r : Remove}

theorem takes (kept : Kept conf live s) (opened : live i)
    (here : (s.objs i).queues roomtype = some q) (takes : Takes s s' i roomtype q group) :
    Kept conf live s' := by
  obtain ⟨q', perm, matched⟩ := takes.queue
  obtain ⟨rooms, whole, full, refs⟩ := matched.rooms
  have whole : s'.rooms = s.rooms ++ rooms := whole
  have stay : ∀ {p}, p ∈ q'.queue → p ∈ q.queue := fun mem =>
    perm.subset (List.mem_append_right group mem)
  have leave : ∀ {p}, p ∈ group → s.MatchUserArr p.id = some ⟨i, roomtype, p⟩ := fun mem =>
    kept.member i roomtype _ opened ⟨q, here, perm.subset (List.mem_append_left _ mem)⟩
  have ids : (group.map (·.id) ++ q'.queue.map (·.id)).Nodup := by
    rw [← List.map_append]
    exact (perm.map _).nodup_iff.mpr (kept.single i roomtype q opened here)
  have apart := (List.nodup_append'.mp ids).2.2
  have recorded : ∀ {id r}, s'.MatchUserArr id = some r →
      id ∉ group.map (·.id) ∧ s.MatchUserArr id = some r := by
    intro id r found
    rw [matched.recorded] at found
    split at found
    · cases found
    · rename_i out
      exact ⟨out, found⟩
  have roomed : s'.roomed = s.roomed ++ (rooms.flatMap Room.players).map (·.ref) := by
    rw [State.roomed, whole, List.flatMap_append, List.map_append, State.roomed]
  have mem_roomed : ∀ {ref}, ref ∈ s'.roomed → ref ∈ s.roomed ∨ ∃ p ∈ group, p.ref = ref := by
    intro ref mem
    rw [roomed, List.mem_append] at mem
    exact mem.imp id fun mem => List.mem_map.mp (refs.subset mem)
  have key : ∀ j, (s'.objs j).queueKey = (s.objs j).queueKey := by
    intro j
    rw [matched.objs, setQueue_queueKey]
  have holds : ∀ {j rt p}, s'.holds j rt p ↔
      if j = i ∧ rt = roomtype then p ∈ q'.queue else s.holds j rt p := by
    intro j rt p
    rw [State.holds, matched.objs]
    exact holds_setQueue
  have before : ∀ {j rt p}, s'.holds j rt p → s.holds j rt p := by
    intro j rt p held
    rw [holds] at held
    split at held
    · rename_i same
      exact same.1 ▸ same.2 ▸ ⟨q, here, stay held⟩
    · exact held
  have table : ∀ {k j}, s'.MatchQueue k = some j → s.MatchQueue k = some j := by
    intro k j found
    rw [matched.table] at found
    split at found
    · rw [Function.update_apply] at found
      split at found
      · cases found
      · exact found
    · exact found
  refine {
    key := fun k j found => ⟨(key j).trans (kept.key k j (table found)).1, (kept.key k j (table found)).2⟩
    made := fun j opened => matched.made ▸ kept.made j opened
    level := fun j rt q'' opened found => ?_
    member := fun j rt p opened held => ?_
    entry := fun id r found => ?_
    single := fun j rt q'' opened found => ?_
    own := fun id r id' r' found found' =>
      kept.own id r id' r' (recorded found).2 (recorded found').2
    fresh := fun id r found => matched.refs ▸ kept.fresh id r (recorded found).2
    apart := fun id r found mem => ?_
    past := fun ref mem => ?_
    full := fun room mem => ?_
    once := ?_ }
  · rw [matched.objs, setQueue_same MatchQueueObj.gameType fun _ _ => rfl]
    rw [matched.objs, setQueue_queues] at found
    split at found
    · rename_i place
      exact place.1 ▸ place.2 ▸ kept.level i roomtype q (place.1 ▸ opened) here
    · exact kept.level j rt q'' opened found
  · rw [matched.recorded, if_neg]
    · exact kept.member j rt p opened (before held)
    · intro mem
      obtain ⟨p', mem', same⟩ := List.mem_map.mp mem
      have place := (leave mem').symm.trans (same ▸ kept.member j rt p opened (before held))
      obtain ⟨rfl, rfl, rfl⟩ : i = j ∧ roomtype = rt ∧ p' = p := by
        simpa using place
      rw [holds, if_pos ⟨rfl, rfl⟩] at held
      exact apart mem (List.mem_map_of_mem held)
  · obtain ⟨out, found⟩ := recorded found
    obtain ⟨opened, held, same⟩ := kept.entry id r found
    refine ⟨opened, ?_, same⟩
    rw [holds]
    split
    · rename_i place
      rw [State.holds, place.1, place.2, here] at held
      obtain ⟨_, same_queue, mem⟩ := held
      obtain rfl := Option.some.inj same_queue
      cases List.mem_append.mp (perm.mem_iff.mpr mem) with
      | inl gone => exact absurd (same ▸ List.mem_map_of_mem gone) out
      | inr stays => exact stays
    · exact held
  · rw [matched.objs, setQueue_queues] at found
    split at found
    · cases found
      exact (List.nodup_append'.mp ids).2.1
    · exact kept.single j rt q'' opened found
  · obtain ⟨out, found⟩ := recorded found
    cases mem_roomed mem with
    | inl old => exact kept.apart id r found old
    | inr new =>
        obtain ⟨p, mem, same⟩ := new
        have owner := kept.own _ _ id r (leave mem) found same
        exact out (owner ▸ List.mem_map_of_mem mem)
  · rw [matched.refs]
    cases mem_roomed mem with
    | inl old => exact kept.past ref old
    | inr new =>
        obtain ⟨p, gone, rfl⟩ := new
        exact kept.fresh _ _ (leave gone)
  · rw [whole] at mem
    exact (List.mem_append.mp mem).elim (kept.full room) (full room)
  · rw [roomed, List.nodup_append']
    refine ⟨kept.once, ?_, fun ref old new => ?_⟩
    · obtain ⟨_, perm, sub⟩ := refs
      refine perm.nodup_iff.mp (List.Nodup.sublist sub ?_)
      refine List.Nodup.map_on (fun p mem p' mem' same => ?_)
        (List.nodup_append'.mp ids).1.of_map
      have owner := kept.own _ _ _ _ (leave mem) (leave mem') same
      exact List.inj_on_of_nodup_map (List.nodup_append'.mp ids).1 mem mem' owner
    · obtain ⟨p, mem, rfl⟩ := List.mem_map.mp (refs.subset new)
      exact kept.apart _ _ (leave mem) old

/-- An object that holds nobody need not count as a queue. -/
theorem close (kept : Kept conf live s) (down : ∀ j, s.live j → live j)
    (up : ∀ j, live j → s.live j ∨ ∀ roomtype p, ¬s.holds j roomtype p) :
    Kept conf s.live s where
  key k i found := by
    obtain ⟨rfl, _⟩ := kept.key k i found
    exact ⟨rfl, found⟩
  made i found := kept.made i (down i found)
  level i roomtype q found := kept.level i roomtype q (down i found)
  member i roomtype p found := kept.member i roomtype p (down i found)
  entry id r found := by
    obtain ⟨opened, held, same⟩ := kept.entry id r found
    exact ⟨(up _ opened).resolve_right fun none => none _ _ held, held, same⟩
  single i roomtype q found := kept.single i roomtype q (down i found)
  own := kept.own
  fresh := kept.fresh
  apart := kept.apart
  past := kept.past
  full := kept.full
  once := kept.once

end Kept

namespace MatchQueueObj

/-- Whether `Tick` is `TickRecycle`. -/
def recycles (obj : MatchQueueObj) : Bool :=
  obj.gameSubType = GameSubType.Recycle ∨ obj.gameSubType = GameSubType.NewUser

/-- How many players of a level a tick puts in rooms. -/
def taken (obj : MatchQueueObj) (now : Nat) (sData : SData) : Nat :=
  match obj.queues sData.room_type with
  | none => 0
  | some q =>
      if obj.recycles = false ∧ obj.PlayerNum * 2 ≤ q.queue.length then
        obj.PlayerNum * (q.queue.length / obj.PlayerNum)
      else if q.queue.head?.any (State.waited now sData) ∧ obj.PlayerNum ≤ q.queue.length then
        obj.PlayerNum
      else 0

/-- Where an order of ids is configured, they name the players of the level. -/
def Named (obj : MatchQueueObj) (q : QueueObj) : Prop :=
  ∀ ids ∈ obj.idArrSort, ids.length = obj.PlayerNum → ∀ p ∈ q.queue, p.id ∈ ids

end MatchQueueObj

section Levels
variable {conf : Conf} {s t : State} {i now : Nat} {sData : SData} {q : QueueObj}

theorem setQueue_self (here : (s.objs i).queues sData.room_type = some q) :
    s.setQueue i sData.room_type q = s := by
  have same : Function.update (s.objs i).queues sData.room_type (some q) = (s.objs i).queues := by
    rw [← here, Function.update_eq_self]
  simp only [State.setQueue, same]
  rw [show ({ s.objs i with queues := (s.objs i).queues } : MatchQueueObj) = s.objs i from rfl,
    Function.update_eq_self]

theorem takes_none {q' : QueueObj} (perm : q'.queue.Perm q.queue)
    (same : t = s.setQueue i sData.room_type q') : Takes s t i sData.room_type q [] :=
  ⟨q', perm, same ▸ .refl _ i⟩

theorem createRobot_takes (tag : Option Nat) :
    Takes s (s.createRobot i now sData q tag) i sData.room_type q [] := by
  refine ⟨{ q with lastAddRobotDt := now }, .refl _, ?_⟩
  refine ⟨rfl, fun id => by simp [State.createRobot], by simp [State.createRobot], rfl, rfl, [],
    ?_, by simp, by simp⟩
  simp [State.createRobot, State.rooms]

theorem match_ok_takes (distinct : (q.queue.map (·.id)).Nodup) (named : (s.objs i).Named q)
    (enough : (s.objs i).PlayerNum ≤ q.queue.length) :
    Takes s ((s.setQueue i sData.room_type
        { q with queue := q.queue.drop (s.objs i).PlayerNum }).match_ok i
        (q.queue.take (s.objs i).PlayerNum) sData.room_type) i sData.room_type q
      (q.queue.take (s.objs i).PlayerNum) := by
  have length : (q.queue.take (s.objs i).PlayerNum).length = (s.objs i).PlayerNum := by
    rw [List.length_take]
    omega
  refine ⟨{ q with queue := q.queue.drop (s.objs i).PlayerNum }, ?_, ?_⟩
  · rw [List.take_append_drop]
  · refine match_ok_matches ?_ (distinct.sublist ((List.take_sublist _ _).map _)) ?_
    · rw [setQueue_same MatchQueueObj.PlayerNum fun _ _ => rfl, length]
    · rw [setQueue_same MatchQueueObj.idArrSort fun _ _ => rfl]
      exact fun ids found size p mem =>
        named ids found (size.trans length) p (List.mem_of_mem_take mem)

theorem matchGroups_takes {n : Nat} (distinct : (q.queue.map (·.id)).Nodup)
    (named : (s.objs i).Named q) (enough : (s.objs i).PlayerNum * n ≤ q.queue.length) :
    Takes s ((s.setQueue i sData.room_type
        { q with queue := q.queue.drop ((s.objs i).PlayerNum * n) }).matchGroups i
        sData.room_type n (conf.sort_by_gold (q.queue.take ((s.objs i).PlayerNum * n)))) i
      sData.room_type q (conf.sort_by_gold (q.queue.take ((s.objs i).PlayerNum * n))) := by
  have perm := conf.perm (q.queue.take ((s.objs i).PlayerNum * n))
  refine ⟨{ q with queue := q.queue.drop ((s.objs i).PlayerNum * n) }, ?_, ?_⟩
  · exact (perm.append_right _).trans (.of_eq (List.take_append_drop _ _))
  · refine matchGroups_matches ?_ ?_ ?_
    · rw [setQueue_same MatchQueueObj.PlayerNum fun _ _ => rfl, perm.length_eq, List.length_take]
      omega
    · exact (perm.map _).nodup_iff.mpr (distinct.sublist ((List.take_sublist _ _).map _))
    · rw [setQueue_same MatchQueueObj.idArrSort fun _ _ => rfl,
        setQueue_same MatchQueueObj.PlayerNum fun _ _ => rfl]
      exact fun ids found size p mem =>
        named ids found size p (List.mem_of_mem_take (perm.subset mem))

/-- A level of a tick: the object's configured order matters only where somebody is taken. -/
theorem TickDefault_takes (here : (s.objs i).queues sData.room_type = some q)
    (kind : (s.objs i).recycles = false) (distinct : (q.queue.map (·.id)).Nodup)
    (named : 0 < (s.objs i).taken now sData → (s.objs i).Named q) :
    ∃ group, Takes s (s.TickDefault conf i now sData) i sData.room_type q group ∧
      group.length = (s.objs i).taken now sData := by
  have stay : Takes s s i sData.room_type q [] := takes_none (.refl _) (setQueue_self here).symm
  simp only [MatchQueueObj.taken, here, kind, true_and] at named ⊢
  simp only [State.TickDefault, here]
  split
  · rename_i many
    have pos := PlayerNum_pos (s.objs i)
    have some_rooms : 0 < q.queue.length / (s.objs i).PlayerNum := Nat.div_pos (by omega) pos
    rw [if_pos many] at named
    have enough := Nat.mul_div_le q.queue.length (s.objs i).PlayerNum
    refine ⟨_, matchGroups_takes distinct (named (Nat.mul_pos pos some_rooms)) enough, ?_⟩
    rw [(conf.perm _).length_eq, List.length_take, min_eq_left enough]
  · rename_i few
    rw [if_neg few] at named
    by_cases ready : q.queue.head?.any (State.waited now sData) = true ∧
      (s.objs i).PlayerNum ≤ q.queue.length
    · rw [if_pos ready] at named ⊢
      have takes := @match_ok_takes s i sData q distinct (named (PlayerNum_pos _)) ready.2
      refine ⟨_, ?_, List.length_take_of_le ready.2⟩
      cases queue : q.queue with
      | nil => simp [queue] at ready
      | cons first rest =>
          rw [queue] at ready takes
          have wait : State.waited now sData first = true := by simpa using ready.1
          dsimp only
          rw [if_pos wait, if_pos ready.2]
          exact takes
    · rw [if_neg ready]
      refine ⟨[], ?_, rfl⟩
      cases queue : q.queue with
      | nil => exact stay
      | cons first rest =>
          rw [queue] at ready
          dsimp only
          split
          · rename_i wait
            rw [if_neg fun enough => ready ⟨by simpa using wait, enough⟩]
            split
            · split
              · cases rest with
                | nil => exact stay
                | cons second rest =>
                    dsimp only
                    split
                    · exact stay
                    · exact takes_none (queue ▸ List.Perm.swap _ _ _) rfl
              · exact createRobot_takes none
            · exact stay
          · exact stay

theorem TickRecycle_takes (here : (s.objs i).queues sData.room_type = some q)
    (kind : (s.objs i).recycles = true) (distinct : (q.queue.map (·.id)).Nodup)
    (named : 0 < (s.objs i).taken now sData → (s.objs i).Named q) :
    ∃ group, Takes s (s.TickRecycle i now sData) i sData.room_type q group ∧
      group.length = (s.objs i).taken now sData := by
  have stay : Takes s s i sData.room_type q [] := takes_none (.refl _) (setQueue_self here).symm
  simp only [MatchQueueObj.taken, here, kind, Bool.true_eq_false, false_and, if_false] at named ⊢
  simp only [State.TickRecycle, here]
  by_cases ready : q.queue.head?.any (State.waited now sData) = true ∧
    (s.objs i).PlayerNum ≤ q.queue.length
  · rw [if_pos ready] at named ⊢
    have takes := @match_ok_takes s i sData q distinct (named (PlayerNum_pos _)) ready.2
    refine ⟨_, ?_, List.length_take_of_le ready.2⟩
    cases queue : q.queue with
    | nil => simp [queue] at ready
    | cons first rest =>
        rw [queue] at ready takes
        have wait : State.waited now sData first = true := by simpa using ready.1
        dsimp only
        rw [if_pos wait, if_pos ready.2]
        exact takes
  · rw [if_neg ready]
    refine ⟨[], ?_, rfl⟩
    cases queue : q.queue with
    | nil => exact stay
    | cons first rest =>
        rw [queue] at ready
        dsimp only
        split
        · rename_i wait
          rw [if_neg fun enough => ready ⟨by simpa using wait, enough⟩]
          split
          · exact createRobot_takes _
          · exact stay
        · exact stay

/-- An object at some point of its life: only its queues change. -/
def Static (obj : MatchQueueObj) (i : Nat) (s : State) : Prop :=
  ∃ queues, s.objs i = { obj with queues := queues }

/-- What the levels visited by a tick have come to. -/
structure Ticked (s t : State) (i now : Nat) (visited : List SData) : Prop where
  others : ∀ j, j ≠ i → t.objs j = s.objs j
  static : Static (s.objs i) i t
  queues : ∀ roomtype, roomtype ∉ visited.map SData.room_type →
    (t.objs i).queues roomtype = (s.objs i).queues roomtype
  left : ∀ sData ∈ visited, ∀ q', (t.objs i).queues sData.room_type = some q' →
    ∃ q, (s.objs i).queues sData.room_type = some q ∧
      q'.queue.length + (s.objs i).taken now sData = q.queue.length
  table : t.MatchQueue =
    if (s.objs i).isRemoveMatchQueue = true ∧ ∃ sData ∈ visited, 0 < (s.objs i).taken now sData then
      Function.update s.MatchQueue (s.objs i).queueKey none else s.MatchQueue

theorem taken_congr (static : Static (s.objs i) i t)
    (same : (t.objs i).queues sData.room_type = (s.objs i).queues sData.room_type) :
    (t.objs i).taken now sData = (s.objs i).taken now sData := by
  obtain ⟨queues, static⟩ := static
  rw [static] at same ⊢
  change queues sData.room_type = _ at same
  simp only [MatchQueueObj.taken, same]
  rfl

theorem Ticked.refl (s : State) (i now : Nat) : Ticked s s i now [] :=
  ⟨fun _ _ => rfl, ⟨_, rfl⟩, fun _ _ => rfl, by simp, by simp⟩

theorem Ticked.trans {u : State} {levels : List SData} (first : Ticked s t i now [sData])
    (rest : Ticked t u i now levels) (fresh : sData.room_type ∉ levels.map SData.room_type) :
    Ticked s u i now (sData :: levels) := by
  obtain ⟨queues, static⟩ := first.static
  have before : ∀ other ∈ levels, (t.objs i).queues other.room_type =
      (s.objs i).queues other.room_type := by
    intro other mem
    refine first.queues _ fun same => fresh ?_
    rw [List.map_singleton, List.mem_singleton] at same
    exact same ▸ List.mem_map_of_mem mem
  refine ⟨fun j other => (rest.others j other).trans (first.others j other), ?_, ?_, ?_, ?_⟩
  · obtain ⟨queues', static'⟩ := rest.static
    exact ⟨queues', by rw [static', static]⟩
  · intro roomtype absent
    rw [List.map_cons, List.mem_cons, not_or] at absent
    rw [rest.queues roomtype absent.2, first.queues roomtype]
    simpa using absent.1
  · intro other mem q' found
    cases mem with
    | head =>
        rw [rest.queues _ fresh] at found
        exact first.left sData List.mem_cons_self q' found
    | tail _ mem =>
        obtain ⟨q, here, size⟩ := rest.left other mem q' found
        rw [taken_congr ⟨queues, static⟩ (before other mem)] at size
        exact ⟨q, before other mem ▸ here, size⟩
  · have same : (∃ other ∈ levels, 0 < (t.objs i).taken now other) ↔
        ∃ other ∈ levels, 0 < (s.objs i).taken now other :=
      exists_congr fun other => and_congr_right fun mem => by
        rw [taken_congr ⟨queues, static⟩ (before other mem)]
    have flag : (t.objs i).isRemoveMatchQueue = (s.objs i).isRemoveMatchQueue := by rw [static]
    have key : (t.objs i).queueKey = (s.objs i).queueKey := by
      rw [static]
      rfl
    rw [rest.table, first.table, flag, key]
    simp only [same, List.exists_mem_cons_iff, List.not_mem_nil, false_and, exists_false, or_false]
    by_cases gone : (s.objs i).isRemoveMatchQueue = true
    · by_cases here : 0 < (s.objs i).taken now sData
      · simp [gone, here]
      · simp [gone, here]
    · simp [gone]

theorem Takes.ticked {group : List Player} (here : (s.objs i).queues sData.room_type = some q)
    (takes : Takes s t i sData.room_type q group)
    (size : group.length = (s.objs i).taken now sData) : Ticked s t i now [sData] := by
  obtain ⟨q', perm, matched⟩ := takes.queue
  refine ⟨fun j other => ?_, ?_, ?_, ?_, ?_⟩
  · rw [matched.objs]
    exact Function.update_of_ne other _ _
  · rw [Static, matched.objs]
    exact ⟨_, Function.update_self ..⟩
  · intro roomtype absent
    rw [matched.objs, setQueue_queues, if_neg]
    simpa using absent
  · intro other mem q'' found
    rw [List.mem_singleton.mp mem] at found ⊢
    rw [matched.objs, setQueue_queues, if_pos ⟨rfl, rfl⟩] at found
    cases found
    refine ⟨q, here, ?_⟩
    rw [← size, ← perm.length_eq, List.length_append, Nat.add_comm]
  · rw [matched.table, setQueue_queueKey, setQueue_same MatchQueueObj.isRemoveMatchQueue
      fun _ _ => rfl]
    have some_taken : group ≠ [] ↔ 0 < (s.objs i).taken now sData := by
      rw [← size, List.length_pos_iff]
    simp only [some_taken, List.mem_singleton, exists_eq_left, and_comm]
    rfl

/-- The levels of a tick in turn. -/
theorem levels_ticked {tick : State → SData → State} {obj : MatchQueueObj} {l : List SData}
    {live : Nat → Prop}
    (idle : ∀ t sData, (t.objs i).queues sData.room_type = none → tick t sData = t)
    (spec : ∀ t sData q, Static obj i t → (t.objs i).queues sData.room_type = some q →
      (q.queue.map (·.id)).Nodup →
      (0 < (t.objs i).taken now sData → (t.objs i).Named q) →
      ∃ group, Takes t (tick t sData) i sData.room_type q group ∧
        group.length = (t.objs i).taken now sData)
    (static : Static obj i s) (kept : Kept conf live s) (opened : live i)
    (distinct : (l.map SData.room_type).Nodup)
    (named : ∀ sData ∈ l, 0 < (s.objs i).taken now sData →
      ∀ q, (s.objs i).queues sData.room_type = some q → (s.objs i).Named q) :
    Kept conf live (l.foldl tick s) ∧ Ticked s (l.foldl tick s) i now l := by
  induction l generalizing s with
  | nil => exact ⟨kept, .refl s i now⟩
  | cons sData l ih =>
      rw [List.map_cons, List.nodup_cons] at distinct
      have first : Kept conf live (tick s sData) ∧ Ticked s (tick s sData) i now [sData] := by
        cases here : (s.objs i).queues sData.room_type with
        | none =>
            rw [idle s sData here]
            refine ⟨kept, fun _ _ => rfl, ⟨_, rfl⟩, fun _ _ => rfl, ?_, ?_⟩
            · intro other mem q' found
              rw [List.mem_singleton.mp mem, here] at found
              cases found
            · simp [MatchQueueObj.taken, here]
        | some q =>
            obtain ⟨group, takes, size⟩ := spec s sData q static here
              (kept.single i _ q opened here)
              fun pos => named sData List.mem_cons_self pos q here
            exact ⟨kept.takes opened here takes, takes.ticked here size⟩
      obtain ⟨kept, ticked⟩ := first
      have static' : Static obj i (tick s sData) := by
        obtain ⟨queues, static⟩ := static
        obtain ⟨queues', ticked⟩ := ticked.static
        exact ⟨queues', by rw [ticked, static]⟩
      obtain ⟨kept, rest⟩ := ih static' kept distinct.2 fun other mem pos q here => by
        have same := ticked.queues other.room_type fun mem' => distinct.1 <| by
          rw [List.map_singleton, List.mem_singleton] at mem'
          exact mem' ▸ List.mem_map_of_mem mem
        rw [taken_congr ticked.static same] at pos
        have found := named other (List.mem_cons_of_mem _ mem) pos q (same ▸ here)
        obtain ⟨queues, obj⟩ := ticked.static
        rw [obj]
        exact found
      exact ⟨kept, ticked.trans rest distinct.1⟩

end Levels

namespace MatchQueueObj
variable (conf : Conf)

/-- Where a match removes the object, the tick takes everybody in it. -/
def Empties (obj : MatchQueueObj) (now : Nat) : Prop :=
  obj.isRemoveMatchQueue = true →
  (∃ sData ∈ levels conf obj.gameType, 0 < obj.taken now sData) →
  ∀ sData ∈ levels conf obj.gameType, ∀ q ∈ obj.queues sData.room_type,
    q.queue.length = obj.taken now sData

/-- Where an order of ids is configured, it names everybody who is taken. -/
def Orders (obj : MatchQueueObj) (now : Nat) : Prop :=
  ∀ sData ∈ levels conf obj.gameType, 0 < obj.taken now sData →
    ∀ q ∈ obj.queues sData.room_type, obj.Named q

/-- Where a cancel removes the object, there are only robots beside, in the same queue. -/
def Deserts (obj : MatchQueueObj) (id : Text) (roomtype : Nat) : Prop :=
  obj.isRemoveMatchQueue = true →
  ∀ sData ∈ levels conf obj.gameType, ∀ q ∈ obj.queues sData.room_type, ∀ p ∈ q.queue,
    p.id = id ∨ p.robot = true ∧ sData.room_type = roomtype

end MatchQueueObj

/-- The condition on a step. -/
def Event.Careful (conf : Conf) (s : State) : Event → Prop
  | .matchCancel id => ∀ r ∈ s.MatchUserArr id, (s.objs r.obj).Deserts conf id r.roomtype
  | .tick queueKey now => ∀ i ∈ s.MatchQueue queueKey,
      (s.objs i).Empties conf now ∧ (s.objs i).Orders conf now
  | _ => True

namespace Kept
variable {conf : Conf} {s : State} {i j now : Nat} {k id : Text}

theorem at_key (kept : Kept conf s.live s) (found : s.MatchQueue k = some i) : s.live i :=
  (kept.key k i found).2

theorem live_inj (opened : s.live i) (opened' : s.live j)
    (same : (s.objs i).queueKey = (s.objs j).queueKey) : i = j := by
  rw [State.live, same, opened'] at opened
  exact (Option.some.inj opened).symm

theorem levels_distinct (gameType : Nat) : ((levels conf gameType).map SData.room_type).Nodup := by
  cases found : conf.roomGroup gameType with
  | none => simp [levels, found]
  | some l => simpa [levels, found] using conf.distinct gameType l found

theorem Tick_ticked (kept : Kept conf s.live s) (opened : s.live i)
    (orders : (s.objs i).Orders conf now) :
    Kept conf s.live (s.Tick conf i now) ∧
      Ticked s (s.Tick conf i now) i now (levels conf (s.objs i).gameType) := by
  simp only [State.Tick]
  have kind : ∀ t, Static (s.objs i) i t → (t.objs i).recycles = (s.objs i).recycles := by
    rintro t ⟨queues, static⟩
    rw [static]
    rfl
  split
  · rename_i recycles
    refine levels_ticked (fun t sData none => ?_) (fun t sData q static here single named =>
      TickRecycle_takes here ?_ single named) ⟨_, rfl⟩ kept opened (levels_distinct _) orders
    · simp only [State.TickRecycle, none]
    · rw [kind t static]
      simpa [MatchQueueObj.recycles] using recycles
  · rename_i recycles
    refine levels_ticked (fun t sData none => ?_) (fun t sData q static here single named =>
      TickDefault_takes here ?_ single named) ⟨_, rfl⟩ kept opened (levels_distinct _) orders
    · simp only [State.TickDefault, none]
    · rw [kind t static]
      simpa [MatchQueueObj.recycles] using recycles

theorem tick (kept : Kept conf s.live s) (opened : s.live i)
    (empties : (s.objs i).Empties conf now) (orders : (s.objs i).Orders conf now) :
    Kept conf (s.Tick conf i now).live (s.Tick conf i now) := by
  obtain ⟨kept', ticked⟩ := kept.Tick_ticked opened orders
  have key : ∀ j, ((s.Tick conf i now).objs j).queueKey = (s.objs j).queueKey := by
    intro j
    by_cases here : j = i
    · obtain ⟨queues, static⟩ := ticked.static
      rw [here, static]
      rfl
    · rw [ticked.others j here]
  refine kept'.close (fun j opened' => ?_) fun j opened' => ?_
  · rw [State.live, key, ticked.table] at opened'
    split at opened'
    · rw [Function.update_apply] at opened'
      split at opened'
      · cases opened'
      · exact opened'
    · exact opened'
  · rw [State.live, key, ticked.table]
    split
    · rename_i gone
      by_cases here : j = i
      · right
        rintro roomtype p ⟨q', found, mem⟩
        have level := kept'.level j roomtype q' opened' found
        subst here
        obtain ⟨queues, static⟩ := ticked.static
        have game : ((s.Tick conf j now).objs j).gameType = (s.objs j).gameType := by rw [static]
        rw [game] at level
        obtain ⟨sData, listed, rfl⟩ := List.mem_map.mp level
        obtain ⟨q, before, size⟩ := ticked.left sData listed q' found
        have all := empties gone.1 gone.2 sData listed q before
        have none : q'.queue = [] := List.length_eq_zero_iff.mp (by omega)
        rw [none] at mem
        cases mem
      · left
        rw [Function.update_of_ne fun same => here (live_inj opened' opened same)]
        exact opened'
    · exact .inl opened'

/-- A new object, which holds nobody, under a key that led nowhere. -/
theorem insert {t : State} {obj : MatchQueueObj} (kept : Kept conf s.live s)
    (absent : s.MatchQueue obj.queueKey = none)
    (empty : ∀ roomtype q, obj.queues roomtype = some q →
      q.queue = [] ∧ roomtype ∈ (levels conf obj.gameType).map SData.room_type)
    (objs : t.objs = Function.update s.objs s.made obj) (made : t.made = s.made + 1)
    (table : t.MatchQueue = Function.update s.MatchQueue obj.queueKey (some s.made))
    (recorded : t.MatchUserArr = s.MatchUserArr) (refs : t.refs = s.refs)
    (sent : t.sent = s.sent) : Kept conf t.live t ∧ t.live s.made := by
  have older : ∀ {j}, s.live j → j ≠ s.made := fun opened => (kept.made _ opened).ne
  have new_obj : t.objs s.made = obj := by rw [objs, Function.update_self]
  have old_obj : ∀ {j}, j ≠ s.made → t.objs j = s.objs j := fun other => by
    rw [objs, Function.update_of_ne other]
  have live : ∀ j, t.live j ↔ s.live j ∨ j = s.made := by
    intro j
    rw [State.live, table]
    by_cases new : j = s.made
    · rw [new, new_obj]
      simp
    · rw [old_obj new, Function.update_apply]
      split
      · rename_i same
        have off : ¬s.live j := by
          rw [State.live, same, absent]
          simp
        simp [off, Ne.symm new, new]
      · simp [State.live, new]
  have old : ∀ {j roomtype p}, t.holds j roomtype p → j ≠ s.made ∧ s.holds j roomtype p := by
    rintro j roomtype p ⟨q, found, mem⟩
    by_cases new : j = s.made
    · rw [new, new_obj] at found
      rw [(empty roomtype q found).1] at mem
      cases mem
    · rw [old_obj new] at found
      exact ⟨new, q, found, mem⟩
  have rooms : t.rooms = s.rooms := by rw [State.rooms, sent, State.rooms]
  have roomed : t.roomed = s.roomed := by rw [State.roomed, rooms, State.roomed]
  refine ⟨?_, (live _).mpr (.inr rfl)⟩
  exact {
    key := fun k j found => by
      refine ⟨?_, (live j).mpr ?_⟩
      · rw [table, Function.update_apply] at found
        split at found
        · rename_i same
          rw [← Option.some.inj found, new_obj, same]
        · obtain ⟨key, opened⟩ := kept.key k j found
          rw [old_obj (older opened), key]
      · rw [table, Function.update_apply] at found
        split at found
        · exact .inr (Option.some.inj found).symm
        · exact .inl (kept.key k j found).2
    made := fun j opened => by
      rw [made]
      cases (live j).mp opened with
      | inl opened => exact (kept.made j opened).trans (Nat.lt_succ_self _)
      | inr new => exact new ▸ Nat.lt_succ_self _
    level := fun j roomtype q opened found => by
      by_cases new : j = s.made
      · rw [new, new_obj] at found ⊢
        exact (empty roomtype q found).2
      · rw [old_obj new] at found ⊢
        exact kept.level j roomtype q (((live j).mp opened).resolve_right new) found
    member := fun j roomtype p opened held => by
      obtain ⟨other, held⟩ := old held
      rw [recorded]
      exact kept.member j roomtype p (((live j).mp opened).resolve_right other) held
    entry := fun id r found => by
      rw [recorded] at found
      obtain ⟨opened, held, same⟩ := kept.entry id r found
      refine ⟨(live _).mpr (.inl opened), ?_, same⟩
      rw [State.holds, old_obj (older opened)]
      exact held
    single := fun j roomtype q opened found => by
      by_cases new : j = s.made
      · rw [new, new_obj] at found
        rw [(empty roomtype q found).1]
        exact List.nodup_nil
      · rw [old_obj new] at found
        exact kept.single j roomtype q (((live j).mp opened).resolve_right new) found
    own := recorded ▸ kept.own
    fresh := by
      rw [recorded, refs]
      exact kept.fresh
    apart := by
      rw [recorded, roomed]
      exact kept.apart
    past := by
      rw [roomed, refs]
      exact kept.past
    full := rooms ▸ kept.full
    once := roomed ▸ kept.once }

theorem GetMatchQueueObj (kept : Kept conf s.live s) (gameType : Nat) (gameSubType : SubType)
    (userId : Text) :
    Kept conf (s.GetMatchQueueObj conf gameType gameSubType userId).1.live
        (s.GetMatchQueueObj conf gameType gameSubType userId).1 ∧
      (s.GetMatchQueueObj conf gameType gameSubType userId).1.live
        (s.GetMatchQueueObj conf gameType gameSubType userId).2 ∧
      (s.GetMatchQueueObj conf gameType gameSubType userId).1.MatchUserArr = s.MatchUserArr ∧
      (s.GetMatchQueueObj conf gameType gameSubType userId).1.refs = s.refs ∧
      (s.GetMatchQueueObj conf gameType gameSubType userId).1.sent = s.sent := by
  have game : (newQueueObj conf gameType gameSubType userId
      (s.RoomMatchCfg userId gameType)).gameType = gameType := by
    simp only [newQueueObj]
    grind
  have queues : (newQueueObj conf gameType gameSubType userId
      (s.RoomMatchCfg userId gameType)).queues = fun roomtype =>
        if roomtype ∈ (levels conf gameType).map SData.room_type then some ⟨[], 0⟩ else none := by
    simp only [newQueueObj]
    grind
  simp only [State.GetMatchQueueObj]
  generalize newQueueObj conf gameType gameSubType userId (s.RoomMatchCfg userId gameType) = obj
    at game queues ⊢
  cases found : s.MatchQueue obj.queueKey with
  | some i => exact ⟨kept, (kept.key _ i found).2, rfl, rfl, rfl⟩
  | none =>
      have inserted := insert (t := { s with
        objs := Function.update s.objs s.made obj
        made := s.made + 1
        MatchQueue := Function.update s.MatchQueue obj.queueKey (some s.made) })
        kept found ?_ rfl rfl rfl rfl rfl rfl
      · exact ⟨inserted.1, inserted.2, rfl, rfl, rfl⟩
      · intro roomtype q here
        simp only [queues] at here
        rw [game]
        split at here
        · cases here
          exact ⟨rfl, by assumption⟩
        · cases here

/-- A player who is not recorded, with a table of his own, joins a queue. -/
theorem add {t : State} {roomtype : Nat} {q : QueueObj} {player : Player}
    (kept : Kept conf s.live s) (opened : s.live i)
    (here : (s.objs i).queues roomtype = some q) (off : s.MatchUserArr player.id = none)
    (older : ∀ id r, s.MatchUserArr id = some r → r.player.ref < player.ref)
    (past : ∀ ref ∈ s.roomed, ref < player.ref) (new : player.ref < t.refs)
    (objs : t.objs = (s.setQueue i roomtype { q with queue := q.queue ++ [player] }).objs)
    (made : t.made = s.made) (table : t.MatchQueue = s.MatchQueue)
    (arr : t.MatchUserArr =
      Function.update s.MatchUserArr player.id (some ⟨i, roomtype, player⟩))
    (sent : t.sent = s.sent) : Kept conf t.live t := by
  have member_id : ∀ {j rt p}, s.live j → s.holds j rt p → p.id ≠ player.id := by
    intro j rt p opened held same
    have found := kept.member j rt p opened held
    rw [same, off] at found
    cases found
  have recorded : ∀ {id r}, t.MatchUserArr id = some r →
      (id = player.id ∧ r = ⟨i, roomtype, player⟩) ∨ s.MatchUserArr id = some r := by
    intro id r found
    rw [arr, Function.update_apply] at found
    split at found
    · rename_i same
      exact .inl ⟨same, (Option.some.inj found).symm⟩
    · exact .inr found
  have holds : ∀ {j rt p}, t.holds j rt p ↔
      if j = i ∧ rt = roomtype then p ∈ q.queue ++ [player] else s.holds j rt p := by
    intro j rt p
    rw [State.holds, objs]
    exact holds_setQueue
  have live : t.live = s.live := by
    funext j
    rw [State.live, objs, table, setQueue_queueKey, State.live]
  have roomed : t.roomed = s.roomed := by rw [State.roomed, State.rooms, sent]; rfl
  rw [live]
  exact {
    key := fun k j found => by
      rw [table] at found
      rw [objs, setQueue_queueKey]
      exact kept.key k j found
    made := made ▸ kept.made
    level := fun j rt q' opened' found => by
      rw [objs, setQueue_same MatchQueueObj.gameType fun _ _ => rfl]
      rw [objs, setQueue_queues] at found
      split at found
      · rename_i place
        exact place.1 ▸ place.2 ▸ kept.level i roomtype q opened here
      · exact kept.level j rt q' opened' found
    member := fun j rt p opened' held => by
      rw [holds] at held
      rw [arr]
      split at held
      · rename_i place
        rw [place.1, place.2]
        cases List.mem_append.mp held with
        | inl old =>
            have found : s.holds i roomtype p := ⟨q, here, old⟩
            rw [Function.update_of_ne (member_id opened found)]
            exact kept.member i roomtype p opened found
        | inr new => rw [List.mem_singleton.mp new, Function.update_self]
      · rw [Function.update_of_ne (member_id opened' held)]
        exact kept.member j rt p opened' held
    entry := fun id r found => by
      cases recorded found with
      | inl new =>
          obtain ⟨rfl, rfl⟩ := new
          refine ⟨opened, holds.mpr ?_, rfl⟩
          rw [if_pos ⟨rfl, rfl⟩]
          exact List.mem_append_right _ (List.mem_singleton_self _)
      | inr old =>
          obtain ⟨opened', held, same⟩ := kept.entry id r old
          refine ⟨opened', holds.mpr ?_, same⟩
          split
          · rename_i place
            rw [State.holds, place.1, place.2, here] at held
            obtain ⟨_, same_queue, mem⟩ := held
            obtain rfl := Option.some.inj same_queue
            exact List.mem_append_left _ mem
          · exact held
    single := fun j rt q' opened' found => by
      rw [objs, setQueue_queues] at found
      split at found
      · cases found
        rw [List.map_append, List.nodup_append']
        refine ⟨kept.single i roomtype q opened here, List.nodup_singleton _, ?_⟩
        intro id old last
        obtain ⟨p, mem, rfl⟩ := List.mem_map.mp old
        exact member_id opened ⟨q, here, mem⟩ (List.mem_singleton.mp last)
      · exact kept.single j rt q' opened' found
    own := fun id r id' r' found found' same => by
      cases recorded found with
      | inl new =>
          cases recorded found' with
          | inl new' => rw [new.1, new'.1]
          | inr old =>
              have less := older id' r' old
              rw [← same, new.2] at less
              exact absurd less (Nat.lt_irrefl _)
      | inr old =>
          cases recorded found' with
          | inl new' =>
              have less := older id r old
              rw [same, new'.2] at less
              exact absurd less (Nat.lt_irrefl _)
          | inr old' => exact kept.own id r id' r' old old' same
    fresh := fun id r found => by
      cases recorded found with
      | inl here => exact here.2 ▸ new
      | inr old => exact (older id r old).trans new
    apart := fun id r found => by
      rw [roomed]
      cases recorded found with
      | inl here =>
          rw [here.2]
          exact fun mem => Nat.lt_irrefl _ (past _ mem)
      | inr old => exact kept.apart id r old
    past := fun ref mem => (past ref (roomed ▸ mem)).trans new
    full := by
      rw [State.rooms, sent]
      exact kept.full
    once := roomed ▸ kept.once }

/-- An object leaves the table, and nobody of it stays recorded. -/
theorem drop {t : State} (kept : Kept conf s.live s) (opened : s.live i)
    (others : ∀ j, j ≠ i → t.objs j = s.objs j)
    (key : (t.objs i).queueKey = (s.objs i).queueKey) (made : t.made = s.made)
    (table : t.MatchQueue = Function.update s.MatchQueue (s.objs i).queueKey none)
    (recorded : ∀ id r, t.MatchUserArr id = some r ↔ s.MatchUserArr id = some r ∧ r.obj ≠ i)
    (refs : t.refs = s.refs) (rooms : t.rooms = s.rooms) : Kept conf t.live t := by
  have roomed : t.roomed = s.roomed := by rw [State.roomed, rooms, State.roomed]
  have live : ∀ {j}, t.live j ↔ s.live j ∧ j ≠ i := by
    intro j
    rw [State.live, table]
    by_cases here : j = i
    · rw [here, key]
      simp
    · rw [others j here, Function.update_apply]
      split
      · rename_i same
        have off : ¬s.live j := fun found => here (live_inj found opened same)
        simp [off]
      · simp [State.live, here]
  exact {
    key := fun k j found => by
      rw [table, Function.update_apply] at found
      split at found
      · cases found
      · rename_i other
        obtain ⟨same, opened'⟩ := kept.key k j found
        have apart : j ≠ i := fun here => other (here ▸ same.symm)
        exact ⟨by rw [others j apart, same], live.mpr ⟨opened', apart⟩⟩
    made := fun j found => made ▸ kept.made j (live.mp found).1
    level := fun j rt q found => by
      rw [others j (live.mp found).2]
      exact kept.level j rt q (live.mp found).1
    member := fun j rt p found held => by
      rw [State.holds, others j (live.mp found).2] at held
      exact (recorded p.id _).mpr ⟨kept.member j rt p (live.mp found).1 held, (live.mp found).2⟩
    entry := fun id r found => by
      obtain ⟨old, apart⟩ := (recorded id r).mp found
      obtain ⟨opened', held, same⟩ := kept.entry id r old
      refine ⟨live.mpr ⟨opened', apart⟩, ?_, same⟩
      rw [State.holds, others _ apart]
      exact held
    single := fun j rt q found => by
      rw [others j (live.mp found).2]
      exact kept.single j rt q (live.mp found).1
    own := fun id r id' r' found found' =>
      kept.own id r id' r' ((recorded id r).mp found).1 ((recorded id' r').mp found').1
    fresh := fun id r found => refs ▸ kept.fresh id r ((recorded id r).mp found).1
    apart := fun id r found => roomed ▸ kept.apart id r ((recorded id r).mp found).1
    past := by
      rw [roomed, refs]
      exact kept.past
    full := rooms ▸ kept.full
    once := roomed ▸ kept.once }

theorem StartMatch (kept : Kept conf s.live s) (gameType roomtype : Nat) (userData : UserData)
    (gameSubType : SubType) :
    Kept conf (s.StartMatch conf now gameType roomtype userData gameSubType).1.live
      (s.StartMatch conf now gameType roomtype userData gameSubType).1 := by
  simp only [State.StartMatch]
  split
  · exact kept
  split
  · exact kept
  rename_i off
  have older : ∀ {ref}, ref < s.refs → ref < s.refs + 1 := fun less =>
    less.trans (Nat.lt_succ_self _)
  have counted : Kept conf (State.live { s with refs := s.refs + 1 })
      { s with refs := s.refs + 1 } := { kept with
    fresh := fun id r found => older (kept.fresh id r found)
    past := fun ref mem => older (kept.past ref mem) }
  have facts := counted.GetMatchQueueObj gameType gameSubType userData.id
  revert facts
  generalize State.GetMatchQueueObj conf { s with refs := s.refs + 1 } gameType gameSubType
    userData.id = found
  obtain ⟨t, i⟩ := found
  rintro ⟨kept', opened, recorded, refs, sent⟩
  dsimp only at kept' opened recorded refs sent ⊢
  simp only [State.AddPlayer]
  cases here : (t.objs i).queues roomtype with
  | none => exact kept'
  | some q =>
      refine @add conf t i _ roomtype q { userData with ref := s.refs, startDt := some now } kept'
        opened here ?_ (fun id r found => ?_) (fun ref mem => ?_) ?_ rfl rfl rfl rfl rfl
      · rw [recorded]
        simpa using off
      · rw [recorded] at found
        exact kept.fresh id r found
      · rw [State.roomed, State.rooms, sent] at mem
        exact kept.past ref mem
      · change s.refs < t.refs
        rw [refs]
        exact Nat.lt_succ_self _

/-- A recorded player is taken out of the queue he is in. -/
theorem recorded_queue {r : Remove} (kept : Kept conf s.live s)
    (found : s.MatchUserArr id = some r) :
    ∃ q q', (s.objs r.obj).queues r.roomtype = some q ∧
      (q.queue.any fun v => v.ref = r.player.ref) = true ∧
      q' = { q with queue := q.queue.eraseP fun v => v.ref = r.player.ref } ∧
      (r.player :: q'.queue).Perm q.queue := by
  obtain ⟨opened, ⟨q, here, mem⟩, same⟩ := kept.entry id r found
  have only : ∀ v ∈ q.queue, v.ref = r.player.ref → v = r.player := by
    intro v mem' ref
    have found' := kept.member r.obj r.roomtype v opened ⟨q, here, mem'⟩
    have owner := kept.own _ _ _ _ found' found ref
    rw [owner, found] at found'
    rw [Option.some.inj found']
  refine ⟨q, _, here, List.any_eq_true.mpr ⟨r.player, mem, by simp⟩, rfl, ?_⟩
  obtain ⟨v, front, back, _, isit, split, erased⟩ :=
    List.exists_of_eraseP (p := fun v : Player => v.ref = r.player.ref) mem (by simp)
  have this : v = r.player := by
    refine only v ?_ (by simpa using isit)
    rw [split]
    exact List.mem_append_right _ List.mem_cons_self
  rw [erased, split, this]
  exact List.perm_middle.symm

/-- Who stays recorded when a queue is removed with the player who leaves it. -/
theorem removed_recorded {r : Remove} {q : QueueObj} (kept : Kept conf s.live s)
    (found : s.MatchUserArr id = some r) (here : (s.objs r.obj).queues r.roomtype = some q)
    (deserts : ∀ rt q, (s.objs r.obj).queues rt = some q → ∀ p ∈ q.queue,
      p.id = id ∨ p.robot = true ∧ rt = r.roomtype) (other : Text) (r' : Remove) :
    (if other = id then none
      else if other ∈ (q.queue.filter fun p => p.robot).map (·.id) then none
      else s.MatchUserArr other) = some r' ↔
    s.MatchUserArr other = some r' ∧ r'.obj ≠ r.obj := by
  obtain ⟨opened, _⟩ := kept.entry id r found
  constructor
  · intro found'
    split at found'
    · cases found'
    rename_i another
    split at found'
    · cases found'
    rename_i stays
    refine ⟨found', fun place => ?_⟩
    obtain ⟨_, ⟨q', here', mem⟩, same⟩ := kept.entry other r' found'
    rw [place] at here'
    cases deserts _ q' here' r'.player mem with
    | inl leaves => exact another (same.symm.trans leaves)
    | inr robot =>
        rw [robot.2, here] at here'
        obtain rfl := Option.some.inj here'
        exact stays (same ▸ List.mem_map_of_mem (List.mem_filter.mpr ⟨mem, robot.1⟩))
  · rintro ⟨found', apart⟩
    rw [if_neg, if_neg]
    · exact found'
    · intro mem
      obtain ⟨p, robot, rfl⟩ := List.mem_map.mp mem
      have recorded := kept.member r.obj r.roomtype p opened ⟨q, here, (List.mem_filter.mp robot).1⟩
      rw [recorded] at found'
      exact apart (Option.some.inj found' ▸ rfl)
    · rintro rfl
      exact apart (Option.some.inj (found'.symm.trans found) ▸ rfl)

/-- Two players in the same queue, which is removed with the first. -/
def Shares (s : State) (r r' : Remove) : Prop :=
  (s.objs r.obj).isRemoveMatchQueue = true ∧ r'.obj = r.obj ∧ r'.roomtype = r.roomtype

theorem MatchCancel (kept : Kept conf s.live s)
    (careful : ∀ r ∈ s.MatchUserArr id, (s.objs r.obj).Deserts conf id r.roomtype) :
    Kept conf (s.MatchCancel id).1.live (s.MatchCancel id).1 ∧
    (s.MatchCancel id).1.MatchUserArr id = none ∧
    ∀ other r', other ≠ id → s.MatchUserArr other = some r' →
      (s.MatchCancel id).1.MatchUserArr other = some r' ∨
      r'.player.robot = true ∧ ∃ r, s.MatchUserArr id = some r ∧ Shares s r r' := by
  simp only [State.MatchCancel]
  cases found : s.MatchUserArr id with
  | none => exact ⟨kept, found, fun other r _ found => .inl found⟩
  | some r =>
      obtain ⟨opened, held, same⟩ := kept.entry id r found
      obtain ⟨q, q', here, isit, erased, perm⟩ := kept.recorded_queue found
      simp only [State.remove, here, isit, if_true, ← erased, Function.update_self, true_and]
      by_cases gone : (s.objs r.obj).isRemoveMatchQueue = true
      · have deserts : ∀ rt q, (s.objs r.obj).queues rt = some q → ∀ p ∈ q.queue,
            p.id = id ∨ p.robot = true ∧ rt = r.roomtype := by
          intro rt q' here' p mem
          obtain ⟨sData, listed, rfl⟩ := List.mem_map.mp (kept.level r.obj rt q' opened here')
          exact careful r found gone sData listed q' here' p mem
        have recorded := kept.removed_recorded found here deserts
        rw [if_pos gone]
        refine ⟨kept.drop opened (fun j other => ?_) ?_ rfl ?_ (fun other r' => ?_) rfl ?_,
          fun other r' another found' => ?_⟩
        · exact Function.update_of_ne other _ _
        · exact setQueue_queueKey
        · simp only [State.exitRobots, State.dropQueue, setQueue_queueKey]
          rfl
        · simp only [State.exitRobots, State.dropQueue, Function.update_apply]
          exact recorded other r'
        · simp [State.exitRobots, State.dropQueue, State.rooms, State.setQueue]
        · simp only [State.exitRobots, State.dropQueue, Function.update_apply]
          by_cases place : r'.obj = r.obj
          · right
            obtain ⟨_, ⟨q', here', mem⟩, same'⟩ := kept.entry other r' found'
            rw [place] at here'
            cases deserts _ q' here' r'.player mem with
            | inl leaves => exact absurd (same'.symm.trans leaves) another
            | inr robot => exact ⟨robot.1, r, rfl, gone, place, robot.2⟩
          · exact .inl ((recorded other r').mpr ⟨found', place⟩)
      · rw [if_neg gone]
        have takes : Takes s { s.setQueue r.obj r.roomtype q' with
            MatchUserArr := Function.update s.MatchUserArr id none }
            r.obj r.roomtype q [r.player] := by
          refine ⟨q', perm, rfl, fun other => ?_, ?_, rfl, rfl, [], ?_, by simp, by simp⟩
          · rw [List.map_singleton, same]
            simp only [List.mem_singleton]
            exact Function.update_apply _ _ _ _
          · rw [setQueue_same MatchQueueObj.isRemoveMatchQueue fun _ _ => rfl,
              if_neg fun both => gone both.2]
          · exact (List.append_nil _).symm
        have live : ∀ j, State.live { s.setQueue r.obj r.roomtype q' with
            MatchUserArr := Function.update s.MatchUserArr id none } j ↔ s.live j := by
          intro j
          rw [State.live, setQueue_queueKey]
          rfl
        refine ⟨(kept.takes opened here takes).close (fun j => (live j).mp)
          fun j opened' => .inl ((live j).mpr opened'), fun other r' another found' => .inl ?_⟩
        rw [Function.update_of_ne another]
        exact found'

theorem init (conf : Conf) : Kept conf (State.init conf).live (State.init conf) := by
  have empty : Kept conf (fun _ => False) {
      objs := fun _ => newQueueObj conf 0 GameSubType.Default [] []
      made := 0
      MatchQueue := fun _ => none
      MatchUserArr := fun _ => none
      RoomMatchCfg := fun _ _ => []
      refs := 0
      sent := [] } := by
    refine ⟨?_, ?_, ?_, ?_, ?_, ?_, ?_, ?_, ?_, ?_, ?_, ?_⟩
    all_goals simp [State.roomed, State.rooms]
  have first := (empty.close (fun j found => nomatch found) fun _ => False.elim).GetMatchQueueObj
    GameType.NoShuffle GameSubType.Default []
  exact (first.1.GetMatchQueueObj GameType.SevenSparrow GameSubType.Default []).1

theorem step {e : Event} {t : State} (kept : Kept conf s.live s) (careful : e.Careful conf s)
    (moved : step conf s e = some t) : Kept conf t.live t := by
  cases e with
  | startMatch now gameType roomtype userData gameSubType =>
      cases moved
      exact kept.StartMatch gameType roomtype userData gameSubType
  | matchCancel id =>
      cases moved
      exact (kept.MatchCancel careful).1
  | tick queueKey now =>
      obtain ⟨i, found, rfl⟩ := Option.map_eq_some_iff.mp moved
      obtain ⟨empties, orders⟩ := careful i found
      exact kept.tick (kept.at_key found) empties orders
  | setRoomMatchCfg gameType arr =>
      cases moved
      simp only [State.SetRoomMatchCfg]
      split
      · exact { kept with }
      · exact kept

end Kept

/-- What holds of the service between two requests. -/
structure Matching (s : State) : Prop where
  queued : ∀ id, (s.MatchUserArr id).isSome = true →
    ∃! place, ∃ queue, s.queueAt place = some queue ∧ id ∈ queue.map (·.id)
  off : ∀ id, s.MatchUserArr id = none →
    ∀ place queue, s.queueAt place = some queue → id ∉ queue.map (·.id)
  single : ∀ place queue, s.queueAt place = some queue → (queue.map (·.id)).Nodup
  full : ∀ room ∈ s.rooms, room.Full
  once : s.roomed.Nodup
  taken : ∀ place queue, s.queueAt place = some queue → ∀ p ∈ queue, p.ref ∉ s.roomed

theorem Kept.matching {conf : Conf} {s : State} (kept : Kept conf s.live s) : Matching s := by
  have place : ∀ {place queue}, s.queueAt place = some queue →
      ∃ i q, s.MatchQueue place.1 = some i ∧ s.live i ∧
        (s.objs i).queues place.2 = some q ∧ q.queue = queue := by
    intro place queue found
    obtain ⟨i, found, inner⟩ := Option.bind_eq_some_iff.mp found
    obtain ⟨q, here, same⟩ := Option.map_eq_some_iff.mp inner
    exact ⟨i, q, found, (kept.key _ i found).2, here, same⟩
  have recorded : ∀ {place queue p}, s.queueAt place = some queue → p ∈ queue →
      ∃ i, s.MatchQueue place.1 = some i ∧ s.MatchUserArr p.id = some ⟨i, place.2, p⟩ := by
    intro at_ queue p found mem
    obtain ⟨i, q, under, opened, here, rfl⟩ := place found
    exact ⟨i, under, kept.member i at_.2 p opened ⟨q, here, mem⟩⟩
  refine ⟨fun id found => ?_, fun id none at_ queue found mem => ?_, fun at_ queue found => ?_,
    kept.full, kept.once, fun at_ queue found p mem => ?_⟩
  · obtain ⟨r, found⟩ := Option.isSome_iff_exists.mp found
    obtain ⟨opened, ⟨q, here, mem⟩, same⟩ := kept.entry id r found
    refine ⟨((s.objs r.obj).queueKey, r.roomtype), ⟨q.queue, ?_, ?_⟩, ?_⟩
    · rw [State.queueAt, opened]
      simp [here]
    · exact same ▸ List.mem_map_of_mem mem
    · rintro ⟨key, roomtype⟩ ⟨queue, found', mem'⟩
      obtain ⟨p, inside, rfl⟩ := List.mem_map.mp mem'
      obtain ⟨i, under, again⟩ := recorded found' inside
      rw [found] at again
      rw [Option.some.inj again, (kept.key key i under).1]
  · obtain ⟨p, inside, rfl⟩ := List.mem_map.mp mem
    obtain ⟨i, _, again⟩ := recorded found inside
    nomatch none.symm.trans again
  · obtain ⟨i, q, _, opened, here, rfl⟩ := place found
    exact kept.single i at_.2 q opened here
  · obtain ⟨i, _, again⟩ := recorded found mem
    exact kept.apart _ _ again

/-- Recorded, and in a queue that is in the table. -/
def State.waits (s : State) (id : Text) (r : Remove) : Prop :=
  s.MatchUserArr id = some r ∧ s.live r.obj ∧ s.holds r.obj r.roomtype r.player

/-- What a cancel leaves: the player is not recorded any more, and the others wait as they
did, unless they are robots in a queue that is removed with the player who leaves it. -/
def Spares (s : State) (id : Text) (t : State) : Prop :=
  t.MatchUserArr id = none ∧
  ∀ other r', other ≠ id → s.MatchUserArr other = some r' →
    t.waits other r' ∨
    r'.player.robot = true ∧ ∃ r, s.MatchUserArr id = some r ∧ Kept.Shares s r r'

section Runs
open Transition

theorem run_matching {conf : Conf} {es : List Event} {s : State}
    (run : Run (step conf) (Event.Careful conf) (State.init conf) es s) :
    Matching s ∧ ∀ id t, Event.Careful conf s (.matchCancel id) →
      step conf s (.matchCancel id) = some t → Spares s id t := by
  have kept : Kept conf s.live s :=
    run.invariant (fun s => Kept conf s.live s) (Kept.init conf)
      fun _ _ _ kept careful moved => kept.step careful moved
  refine ⟨kept.matching, fun id t careful moved => ?_⟩
  cases moved
  obtain ⟨kept', gone, others⟩ := kept.MatchCancel careful
  refine ⟨gone, fun other r' another found => (others other r' another found).imp_left ?_⟩
  intro found'
  obtain ⟨opened, held, _⟩ := kept'.entry other r' found'
  exact ⟨found', opened, held⟩

instance (conf : Conf) (obj : MatchQueueObj) (now : Nat) : Decidable (obj.Empties conf now) :=
  inferInstanceAs (Decidable (obj.isRemoveMatchQueue = true →
    (∃ sData ∈ levels conf obj.gameType, 0 < obj.taken now sData) →
    ∀ sData ∈ levels conf obj.gameType, ∀ q ∈ obj.queues sData.room_type,
      q.queue.length = obj.taken now sData))

instance (conf : Conf) (obj : MatchQueueObj) (now : Nat) : Decidable (obj.Orders conf now) :=
  inferInstanceAs (Decidable (∀ sData ∈ levels conf obj.gameType, 0 < obj.taken now sData →
    ∀ q ∈ obj.queues sData.room_type, ∀ ids ∈ obj.idArrSort, ids.length = obj.PlayerNum →
      ∀ p ∈ q.queue, p.id ∈ ids))

instance (conf : Conf) (obj : MatchQueueObj) (id : Text) (roomtype : Nat) :
    Decidable (obj.Deserts conf id roomtype) :=
  inferInstanceAs (Decidable (obj.isRemoveMatchQueue = true →
    ∀ sData ∈ levels conf obj.gameType, ∀ q ∈ obj.queues sData.room_type, ∀ p ∈ q.queue,
      p.id = id ∨ p.robot = true ∧ sData.room_type = roomtype))

instance (conf : Conf) (s : State) : ∀ e : Event, Decidable (e.Careful conf s)
  | .startMatch .. => inferInstanceAs (Decidable True)
  | .setRoomMatchCfg .. => inferInstanceAs (Decidable True)
  | .matchCancel id => inferInstanceAs (Decidable (∀ r ∈ s.MatchUserArr id,
      (s.objs r.obj).Deserts conf id r.roomtype))
  | .tick queueKey now => inferInstanceAs (Decidable (∀ i ∈ s.MatchQueue queueKey,
      (s.objs i).Empties conf now ∧ (s.objs i).Orders conf now))

/-- One level of each game, and a stable sort. -/
def oneLevel : Conf where
  roomGroup := fun gameType =>
    if gameType = GameType.NoShuffle ∨ gameType = GameType.SevenSparrow then
      some [⟨1, 3000, 5000⟩] else none
  distinct := by
    intro gameType l found
    split at found
    · cases found
      decide
    · cases found
  sort_by_gold := fun players => players.mergeSort fun a b => a.gold ≤ b.gold
  perm := fun players => List.mergeSort_perm players _
  sorted := by
    intro players
    have sorted := @List.pairwise_mergeSort Player (fun a b => a.gold ≤ b.gold)
      (fun a b c first second => by
        simp only [decide_eq_true_eq] at first second ⊢
        exact first.trans second)
      (fun a b => by
        simp only [Bool.or_eq_true, decide_eq_true_eq]
        exact le_total a.gold b.gold) players
    simpa using sorted

def userData (id : Char) : UserData := ⟨[id], 0, 1000, false, false⟩

def configure : Event := .setRoomMatchCfg GameType.NoShuffle [['a'], ['b'], ['c']]

/-- A request of a user who is configured to meet the two others. -/
def meets (id : Char) : Event := .startMatch 0 GameType.NoShuffle 1 (userData id)
  GameSubType.MatchServer

/-- The three meet in one room, and nothing of them is left behind. -/
theorem run_matching_configured :
    ∃ s, Run (step oneLevel) (Event.Careful oneLevel) (State.init oneLevel)
        [configure, meets 'a', meets 'c', meets 'b', .tick "1_100_abc".toList 3] s ∧
      s.rooms.map (fun room => room.players.map (·.id)) = [[['a'], ['b'], ['c']]] ∧
      Matching s := by
  obtain ⟨s, run, met⟩ := run_of_guarded_any (step oneLevel) (Event.Careful oneLevel)
    (State.init oneLevel) [configure, meets 'a', meets 'c', meets 'b', .tick "1_100_abc".toList 3]
    (fun s => s.rooms.map (fun room => room.players.map (·.id)) = [[['a'], ['b'], ['c']]])
    (by decide)
  exact ⟨s, run, met, (run_matching run).1⟩

/-- Two of the three wait for the third; one leaves, and takes the other's queue with him. -/
theorem matching_fails : ¬∀ (conf : Conf) (es : List Event) (s : State),
    Run (step conf) anyStep (State.init conf) es s →
    Matching s ∧ ∀ id t, step conf s (.matchCancel id) = some t → Spares s id t := by
  intro all
  have run : Run (step oneLevel) anyStep (State.init oneLevel) [configure, meets 'a', meets 'b']
      ((exec (step oneLevel) (State.init oneLevel) [configure, meets 'a', meets 'b']).get
        (by decide)) :=
    run_of_exec _ _ _ (Option.some_get _).symm
  have spares := ((all _ _ _ run).2 ['a'] _ rfl).2 ['b']
    ⟨2, 1, { userData 'b' with ref := 1, startDt := some 0 }⟩ (by decide) (by decide)
  cases spares with
  | inl waits => exact absurd waits.2.1 (by decide)
  | inr robot => exact absurd robot.1 (by decide)

end Runs

end HuluLandlord.Match
