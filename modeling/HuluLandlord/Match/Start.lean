import HuluLandlord.Define
import HuluLandlord.Match.Matching

/-!
The two views of who is matching: `roomState` in the agent of a user and `MatchUserArr` in the service.
What an agent sends to the service keeps its order. `RoomMatchCancel` waits for an answer, so it is two
events with the service's work between them, and a match reaches the agent when its room asks for the
data of the player. Robots are started by their own service.
-/
namespace HuluLandlord.Match
open Transition

def GameSubType.Prison : SubType := .num 30

inductive UserRoomState
  | Idle | Matching | Gameing
  deriving DecidableEq, Repr

/-- The gold a level of a game asks for; a `max` of -1 is none. -/
structure GoldLimits where
  min : Int
  max : Int
  deriving DecidableEq

/-- What an agent reads of the tables besides the levels, and which ids are those of robots.
`newUserGames` is that of the global value 200001. -/
structure StartConf where
  conf : Conf
  gold : Nat → Nat → GoldLimits
  newUserGames : Nat
  init_cards : Nat → List Nat
  isRobot : Text → Bool

/-- What an agent sends to the service. -/
inductive ToMgr
  | StartMatch (gameType roomtype : Nat) (userData : UserData) (gameSubType : SubType)
  | MatchCancel
  deriving DecidableEq

/-- `sent` is on the way to the service and `answers` on the way back, oldest first. `seated` rooms
have asked for the player, and `left` of them are over. -/
structure MatchUser where
  addr : Nat
  gold : Int
  roomGameCount : Nat → Nat → Nat
  newUserGameArr : List Nat
  roomState : UserRoomState
  sent : List ToMgr
  answers : List Bool
  seated : Nat
  left : Nat

structure World where
  mgr : State
  users : Text → MatchUser

inductive WorldEvent
  | RoomStartMatch (id : Text) (gameType roomLevel : Nat) (prison : Bool)
  | RoomMatchCancel (id : Text)
  | mgr (id : Text) (now : Nat)
  | answer (id : Text)
  | RoomUserInfoGet (id : Text)
  | exitRoom (id : Text)
  | robot (now gameType roomtype : Nat) (userData : UserData) (gameSubType : SubType)
  | tick (queueKey : Text) (now : Nat)
  | setRoomMatchCfg (gameType : Nat) (arr : List Text)
  | user (id : Text) (gold : Int) (roomGameCount : Nat → Nat → Nat) (newUserGameArr : List Nat)

/-- How often a user is a player of a room the service has asked for. -/
def State.called (s : State) (id : Text) : Nat :=
  (s.rooms.flatMap Room.players).countP fun p => p.id = id

namespace MatchUser
variable (cfg : StartConf)

/-- The sub type of a request; `idArr` is what is configured for the user. -/
def gameSubType (u : MatchUser) (idArr : List Text) (gameType roomLevel : Nat) (prison : Bool) :
    SubType :=
  let newUserGameCount := u.roomGameCount gameType 1 + u.roomGameCount gameType 2
  let arr := (cfg.init_cards gameType).filter fun card => card ∉ u.newUserGameArr
  let gameSubType :=
    if gameType = GameType.SevenSparrow ∧ roomLevel ≤ 2 ∧ newUserGameCount ≤ cfg.newUserGames ∧
      arr ≠ [] then GameSubType.NewUser else GameSubType.Default
  let gameSubType := if idArr ≠ [] then GameSubType.MatchServer else gameSubType
  if gameSubType = GameSubType.Default ∧ prison then GameSubType.Prison else gameSubType

/-- `RoomStartMatch`. The state is written before the game is looked at. -/
def RoomStartMatch (u : MatchUser) (id : Text) (idArr : List Text) (gameType roomLevel : Nat)
    (prison : Bool) : MatchUser × RetVal :=
  if u.roomState = .Matching then (u, .exists_4)
  else if u.roomState ≠ .Idle then (u, .notExists_5)
  else
    match (levels cfg.conf gameType).find? fun sData => sData.room_type = roomLevel with
    | none => (u, .error_3)
    | some _ =>
        let sData := cfg.gold gameType roomLevel
        if u.gold < sData.min ∨ u.gold > sData.max ∧ sData.max ≠ -1 then (u, .fail_2)
        else
          let u := { u with roomState := .Matching }
          if gameType = GameType.NoShuffle ∨ gameType = GameType.SevenSparrow then
            ({ u with
              sent := u.sent ++ [.StartMatch gameType roomLevel ⟨id, u.addr, u.gold, false, false⟩
                (u.gameSubType cfg idArr gameType roomLevel prison)] }, .succeed_1)
          else (u, .error_3)

/-- The user is idle, and the level exists and is for his gold. -/
def Admitted (u : MatchUser) (gameType roomLevel : Nat) : Prop :=
  u.roomState = .Idle ∧ roomLevel ∈ (levels cfg.conf gameType).map SData.room_type ∧
    ¬(u.gold < (cfg.gold gameType roomLevel).min ∨
      u.gold > (cfg.gold gameType roomLevel).max ∧ (cfg.gold gameType roomLevel).max ≠ -1)

/-- A level that is open to the user is one of the two games that are matched. -/
def Supported (u : MatchUser) (gameType roomLevel : Nat) : Prop :=
  u.Admitted cfg gameType roomLevel →
    gameType = GameType.NoShuffle ∨ gameType = GameType.SevenSparrow

/-- The first half of `RoomMatchCancel`. -/
def RoomMatchCancel (u : MatchUser) : MatchUser :=
  if u.roomState = .Matching then { u with sent := u.sent ++ [.MatchCancel] } else u

/-- The second half, when the service has answered. -/
def cancelled (u : MatchUser) (answer : Bool) : MatchUser :=
  if answer then { u with roomState := .Idle } else u

end MatchUser

namespace World
variable (cfg : StartConf)

def setUser (s : World) (id : Text) (u : MatchUser) : World :=
  { s with users := Function.update s.users id u }

def called (s : World) (id : Text) : Nat := s.mgr.called id

/-- The service takes a message of a user. -/
def receive (s : World) (id : Text) (now : Nat) : Option World :=
  let u := s.users id
  match u.sent with
  | [] => none
  | .StartMatch gameType roomtype userData gameSubType :: sent =>
      some { (s.setUser id { u with sent := sent }) with
        mgr := (s.mgr.StartMatch cfg.conf now gameType roomtype userData gameSubType).1 }
  | .MatchCancel :: sent =>
      let done := s.mgr.MatchCancel id
      some { (s.setUser id { u with sent := sent, answers := u.answers ++ [done.2] }) with
        mgr := done.1 }

def step (s : World) : WorldEvent → Option World
  | .RoomStartMatch id gameType roomLevel prison =>
      if cfg.isRobot id then none
      else some (s.setUser id ((s.users id).RoomStartMatch cfg id (s.mgr.RoomMatchCfg id gameType)
        gameType roomLevel prison).1)
  | .RoomMatchCancel id => some (s.setUser id (s.users id).RoomMatchCancel)
  | .mgr id now => s.receive cfg id now
  | .answer id =>
      match (s.users id).answers with
      | [] => none
      | answer :: answers =>
          some (s.setUser id ({ s.users id with answers := answers }.cancelled answer))
  | .RoomUserInfoGet id =>
      let u := s.users id
      if u.seated < s.called id then
        some (s.setUser id { u with seated := u.seated + 1, roomState := .Gameing })
      else none
  | .exitRoom id =>
      let u := s.users id
      if u.left < u.seated then some (s.setUser id { u with left := u.left + 1, roomState := .Idle })
      else none
  | .robot now gameType roomtype userData gameSubType =>
      if userData.robot ∧ cfg.isRobot userData.id then
        some { s with mgr := (s.mgr.StartMatch cfg.conf now gameType roomtype userData gameSubType).1 }
      else none
  | .tick queueKey now => (Match.step cfg.conf s.mgr (.tick queueKey now)).map fun mgr => { s with mgr }
  | .setRoomMatchCfg gameType arr => some { s with mgr := s.mgr.SetRoomMatchCfg gameType arr }
  | .user id gold roomGameCount newUserGameArr =>
      some (s.setUser id { s.users id with gold, roomGameCount, newUserGameArr })

/-- The service as it starts, and agents that have done nothing yet. -/
def init (users : Text → MatchUser) : World :=
  ⟨State.init cfg.conf, fun id =>
    { users id with roomState := .Idle, sent := [], answers := [], seated := 0, left := 0 }⟩

def Supported (s : World) : WorldEvent → Prop
  | .RoomStartMatch id gameType roomLevel _ => (s.users id).Supported cfg gameType roomLevel
  | _ => True

end World

namespace State
variable {conf : Conf} {s t u : State} {i roomtype : Nat} {q : QueueObj} {id : Text}

/-- What none of the service's own steps does to its objects: make one, change its key or its levels,
or bring a player in. -/
structure Evolves (s t : State) : Prop where
  made : t.made = s.made
  table : ∀ k i, t.MatchQueue k = some i → s.MatchQueue k = some i
  game : ∀ i, (t.objs i).gameType = (s.objs i).gameType
  key : ∀ i, (t.objs i).queueKey = (s.objs i).queueKey
  level : ∀ i roomtype, ((t.objs i).queues roomtype).isSome = ((s.objs i).queues roomtype).isSome
  player : ∀ i roomtype q, (t.objs i).queues roomtype = some q → ∀ p ∈ q.queue,
    ∃ q', (s.objs i).queues roomtype = some q' ∧ p ∈ q'.queue

theorem Evolves.refl (s : State) : Evolves s s :=
  ⟨rfl, fun _ _ found => found, fun _ => rfl, fun _ => rfl, fun _ _ => rfl,
    fun _ _ q found _ mem => ⟨q, found, mem⟩⟩

theorem Evolves.trans (first : Evolves s t) (second : Evolves t u) : Evolves s u := by
  refine ⟨second.made.trans first.made, fun k i found => first.table k i (second.table k i found),
    fun i => (second.game i).trans (first.game i), fun i => (second.key i).trans (first.key i),
    fun i roomtype => (second.level i roomtype).trans (first.level i roomtype), ?_⟩
  intro i roomtype q found p mem
  obtain ⟨q', found', mem'⟩ := second.player i roomtype q found p mem
  exact first.player i roomtype q' found' p mem'

/-- A user stays recorded unless he has been put in a room. -/
structure Serves (s t : State) (id : Text) : Prop where
  called : s.called id ≤ t.called id
  recorded : t.MatchUserArr id = s.MatchUserArr id ∨ s.called id < t.called id

theorem Serves.refl (s : State) (id : Text) : Serves s s id := ⟨le_refl _, .inl rfl⟩

theorem Serves.trans (first : Serves s t id) (second : Serves t u id) : Serves s u id := by
  refine ⟨first.called.trans second.called, ?_⟩
  obtain same | more := first.recorded
  · obtain same' | more' := second.recorded
    · exact .inl (same'.trans same)
    · exact .inr (lt_of_le_of_lt first.called more')
  · exact .inr (lt_of_lt_of_le more second.called)

/-- A step of the service that keeps to both. -/
def Works (s t : State) : Prop := Evolves s t ∧ ∀ id, Serves s t id

theorem Works.refl (s : State) : Works s s := ⟨.refl s, fun id => .refl s id⟩

theorem Works.trans (first : Works s t) (second : Works t u) : Works s u :=
  ⟨first.1.trans second.1, fun id => (first.2 id).trans (second.2 id)⟩

def roomOf : Sent → Option Room
  | .create_room room => some room
  | _ => none

theorem rooms_eq (s : State) : s.rooms = s.sent.filterMap roomOf := by
  refine List.filterMap_congr fun m _ => ?_
  cases m with
  | create_room room => rfl
  | CreateRobot _ _ _ _ => rfl
  | exitRobot _ => rfl

theorem called_append (new : List Sent) (sent : t.sent = s.sent ++ new) (id : Text) :
    t.called id =
      s.called id + ((new.filterMap roomOf).flatMap Room.players).countP fun p => p.id = id := by
  simp only [called, rooms_eq, sent, List.filterMap_append, List.flatMap_append, List.countP_append]

theorem works_setQueue {r : QueueObj} (here : (s.objs i).queues roomtype = some q)
    (fewer : ∀ p ∈ r.queue, p ∈ q.queue) : Works s (s.setQueue i roomtype r) := by
  refine ⟨⟨rfl, fun _ _ found => found, ?_, ?_, ?_, ?_⟩, fun id => ⟨le_refl _, .inl rfl⟩⟩
  · intro j
    exact setQueue_same MatchQueueObj.gameType fun _ _ => rfl
  · intro j
    exact setQueue_queueKey
  · intro j level
    rw [setQueue_queues]
    split
    · rename_i same
      rw [same.1, same.2, here]
      rfl
    · rfl
  · intro j level q₁ found p mem
    rw [setQueue_queues] at found
    split at found
    · rename_i same
      obtain rfl := Option.some.inj found
      rw [same.1, same.2]
      exact ⟨q, here, fewer p mem⟩
    · exact ⟨q₁, found, mem⟩

/-- A message that is not for the rooms. -/
theorem called_other {m : Sent} (other : roomOf m = none) (sent : t.sent = s.sent ++ [m])
    (id : Text) : t.called id = s.called id := by
  rw [called_append [m] sent, List.filterMap_cons_none other]
  rfl

theorem works_dropQueue (i : Nat) : Works s (s.dropQueue i) := by
  refine ⟨⟨rfl, fun k j found => ?_, fun _ => rfl, fun _ => rfl, fun _ _ => rfl,
    fun _ _ q found _ mem => ⟨q, found, mem⟩⟩, fun id => ⟨le_refl _, .inl rfl⟩⟩
  simp only [dropQueue, Function.update_apply] at found
  split at found
  · cases found
  · exact found

theorem works_match_ok (players : List Player) : Works s (s.match_ok i players roomtype) := by
  unfold match_ok
  simp only
  generalize sortPlayers (s.objs i).idArrSort players = players
  have matched : Works s { s with
      MatchUserArr := fun id => if id ∈ players.map (·.id) then none else s.MatchUserArr id
      sent := s.sent ++ [.create_room ⟨(s.objs i).gameType, roomtype, (s.objs i).PlayerNum,
        players.map fun p => { p with startDt := none }⟩] } := by
    refine ⟨⟨rfl, fun _ _ found => found, fun _ => rfl, fun _ => rfl, fun _ _ => rfl,
      fun _ _ q found _ mem => ⟨q, found, mem⟩⟩, fun id => ?_⟩
    have more := called_append (s := s) (t := { s with
      MatchUserArr := fun id => if id ∈ players.map (·.id) then none else s.MatchUserArr id
      sent := s.sent ++ [.create_room ⟨(s.objs i).gameType, roomtype, (s.objs i).PlayerNum,
        players.map fun p => { p with startDt := none }⟩] }) _ rfl id
    refine ⟨more ▸ Nat.le_add_right _ _, ?_⟩
    by_cases player : id ∈ players.map (·.id)
    · refine .inr ?_
      rw [more]
      apply Nat.lt_add_of_pos_right
      obtain ⟨p, mem, same⟩ := List.mem_map.mp player
      apply List.countP_pos_iff.mpr
      refine ⟨{ p with startDt := none }, ?_, by simpa using same⟩
      simp only [roomOf, List.filterMap_cons, List.filterMap_nil, List.flatMap_cons, List.flatMap_nil,
        List.append_nil]
      exact List.mem_map_of_mem mem
    · exact .inl (if_neg player)
  split
  · exact matched.trans (works_dropQueue i)
  · exact matched

theorem works_matchGroups (n : Nat) (players : List Player) :
    Works s (matchGroups i roomtype n players s) := by
  induction n generalizing players s with
  | zero => exact .refl s
  | succ n ih => exact (works_match_ok _).trans (ih _)

theorem works_createRobot {now : Nat} {sData : SData} {tag : Option Nat}
    (here : (s.objs i).queues sData.room_type = some q) :
    Works s (s.createRobot i now sData q tag) := by
  have set := works_setQueue (s := s) (i := i) (r := { q with lastAddRobotDt := now }) here
    fun p mem => mem
  refine set.trans ⟨⟨rfl, fun _ _ found => found, fun _ => rfl, fun _ => rfl, fun _ _ => rfl,
    fun _ _ q found _ mem => ⟨q, found, mem⟩⟩, fun id => ⟨?_, .inl rfl⟩⟩
  exact le_of_eq (called_other rfl rfl id).symm

theorem works_TickDefault {now : Nat} (sData : SData) :
    Works s (s.TickDefault conf i now sData) := by
  simp only [TickDefault]
  cases here : (s.objs i).queues sData.room_type with
  | none => exact .refl s
  | some q =>
      simp only
      split
      · exact (works_setQueue here fun p mem => List.mem_of_mem_drop mem).trans
          (works_matchGroups _ _)
      · cases queued : q.queue with
        | nil => exact .refl s
        | cons first rest =>
            simp only
            split
            · split
              · refine (works_setQueue here fun p mem => ?_).trans (works_match_ok _)
                rw [queued]
                exact List.mem_of_mem_drop mem
              · split
                · split
                  · cases rest with
                    | nil => exact .refl s
                    | cons second rest =>
                        simp only
                        split
                        · exact .refl s
                        · refine works_setQueue here fun p mem => ?_
                          rw [queued]
                          exact (List.Perm.swap first second rest).subset mem
                  · exact works_createRobot here
                · exact .refl s
            · exact .refl s

theorem works_TickRecycle {now : Nat} (sData : SData) : Works s (s.TickRecycle i now sData) := by
  simp only [TickRecycle]
  cases here : (s.objs i).queues sData.room_type with
  | none => exact .refl s
  | some q =>
      simp only
      split
      · exact .refl s
      · split
        · split
          · exact (works_setQueue here fun p mem => List.mem_of_mem_drop mem).trans
              (works_match_ok _)
          · split
            · exact works_createRobot here
            · exact .refl s
        · exact .refl s

theorem works_levels {f : State → SData → State} (each : ∀ s sData, Works s (f s sData))
    (l : List SData) (s : State) : Works s (l.foldl f s) := by
  induction l generalizing s with
  | nil => exact .refl s
  | cons sData l ih => exact (each s sData).trans (ih _)

theorem works_Tick {now : Nat} : Works s (s.Tick conf i now) := by
  rw [Tick]
  split
  · exact works_levels (fun s sData => works_TickRecycle sData) _ s
  · exact works_levels (fun s sData => works_TickDefault sData) _ s

/-- Every object in the table is under its own key and has a queue for every level of its game. -/
structure Leveled (conf : Conf) (s : State) : Prop where
  key : ∀ k i, s.MatchQueue k = some i → (s.objs i).queueKey = k ∧ i < s.made
  level : ∀ k i, s.MatchQueue k = some i →
    ∀ roomtype ∈ (levels conf (s.objs i).gameType).map SData.room_type,
      ((s.objs i).queues roomtype).isSome

/-- The robots in the queues have ids of robots. -/
def Told (isRobot : Text → Bool) (s : State) : Prop :=
  ∀ i roomtype q, (s.objs i).queues roomtype = some q → ∀ p ∈ q.queue, p.robot = true →
    isRobot p.id = true

variable {isRobot : Text → Bool}

theorem Leveled.evolves (leveled : Leveled conf s) (evolves : Evolves s t) : Leveled conf t := by
  refine ⟨fun k i found => ?_, fun k i found roomtype listed => ?_⟩
  · obtain ⟨key, made⟩ := leveled.key k i (evolves.table k i found)
    rw [evolves.key, evolves.made]
    exact ⟨key, made⟩
  · rw [evolves.game] at listed
    rw [evolves.level]
    exact leveled.level k i (evolves.table k i found) roomtype listed

theorem Told.evolves (told : Told isRobot s) (evolves : Evolves s t) : Told isRobot t := by
  intro i roomtype q found p mem robot
  obtain ⟨q', found', mem'⟩ := evolves.player i roomtype q found p mem
  exact told i roomtype q' found' p mem' robot

/-- The key of an object begins with its game. -/
theorem gameType_of_key {obj obj' : MatchQueueObj} (same : obj.queueKey = obj'.queueKey) :
    obj.gameType = obj'.gameType := by
  have digits : ∀ obj : MatchQueueObj, obj.queueKey.takeWhile (· ≠ '_') = tostring obj.gameType := by
    intro obj
    have plain : ∀ c ∈ tostring obj.gameType, (decide (c ≠ '_')) = true := by
      intro c mem
      refine decide_eq_true fun bar => ?_
      rw [bar] at mem
      exact Nat.underscore_not_in_toDigits mem
    rw [MatchQueueObj.queueKey, List.append_assoc, List.takeWhile_append_of_pos plain]
    simp
  have text : tostring obj.gameType = tostring obj'.gameType := by
    rw [← digits obj, ← digits obj', same]
  have number := congrArg (fun text => Nat.ofDigitChars 10 text 0) text
  simpa only [tostring, Nat.ofDigitChars_ten_toDigits] using number

/-- A new object has an empty queue for every level of its game. -/
theorem newQueueObj_fields (gameType : Nat) (gameSubType : SubType) (userId : Text)
    (idArr : List Text) :
    (newQueueObj conf gameType gameSubType userId idArr).gameType = gameType ∧
      (newQueueObj conf gameType gameSubType userId idArr).queues = fun roomtype =>
        if roomtype ∈ (levels conf gameType).map SData.room_type then some ⟨[], 0⟩ else none := by
  simp only [newQueueObj]
  grind

/-- What `GetMatchQueueObj` leaves behind and what it gives. -/
structure Got (conf : Conf) (isRobot : Text → Bool) (gameType : Nat) (s : State) (got : State × Nat) :
    Prop where
  leveled : Leveled conf got.1
  told : Told isRobot got.1
  recorded : got.1.MatchUserArr = s.MatchUserArr
  sent : got.1.sent = s.sent
  level : ∀ roomtype ∈ (levels conf gameType).map SData.room_type,
    ((got.1.objs got.2).queues roomtype).isSome

theorem getMatchQueueObj_got (leveled : Leveled conf s) (told : Told isRobot s) (gameType : Nat)
    (gameSubType : SubType) (userId : Text) :
    Got conf isRobot gameType s (s.GetMatchQueueObj conf gameType gameSubType userId) := by
  obtain ⟨game, queues⟩ :=
    @newQueueObj_fields conf gameType gameSubType userId (s.RoomMatchCfg userId gameType)
  simp only [GetMatchQueueObj]
  generalize newQueueObj conf gameType gameSubType userId (s.RoomMatchCfg userId gameType) = obj
    at game queues ⊢
  cases found : s.MatchQueue obj.queueKey with
  | some i =>
      refine ⟨leveled, told, rfl, rfl, fun roomtype listed => ?_⟩
      refine leveled.level _ i found roomtype ?_
      rw [gameType_of_key (leveled.key _ i found).1, game]
      exact listed
  | none =>
      have own : ∀ roomtype ∈ (levels conf gameType).map SData.room_type,
          (obj.queues roomtype).isSome := by
        intro roomtype listed
        rw [queues]
        simp only [if_pos listed, Option.isSome_some]
      refine ⟨⟨?_, ?_⟩, ?_, rfl, rfl, ?_⟩
      · intro k i here
        simp only [Function.update_apply] at here ⊢
        split at here
        · rename_i same
          obtain rfl := Option.some.inj here
          rw [if_pos rfl, same]
          exact ⟨rfl, Nat.lt_succ_self _⟩
        · obtain ⟨key, made⟩ := leveled.key k i here
          rw [if_neg made.ne]
          exact ⟨key, made.trans (Nat.lt_succ_self _)⟩
      · intro k i here roomtype listed
        simp only [Function.update_apply] at here listed ⊢
        split at here
        · obtain rfl := Option.some.inj here
          rw [if_pos rfl, game] at listed
          rw [if_pos rfl]
          exact own roomtype listed
        · have made := (leveled.key k i here).2
          rw [if_neg made.ne] at listed ⊢
          exact leveled.level k i here roomtype listed
      · intro i roomtype q here p mem robot
        simp only [Function.update_apply] at here
        split at here
        · rw [queues] at here
          simp only at here
          split at here
          · obtain rfl := Option.some.inj here
            cases mem
          · cases here
        · exact told i roomtype q here p mem robot
      · intro roomtype listed
        simp only [Function.update_self]
        exact own roomtype listed

theorem leveled_of_empty (table : ∀ k, s.MatchQueue k = none)
    (empty : ∀ i roomtype q, (s.objs i).queues roomtype = some q → q.queue = []) :
    Leveled conf s ∧ Told isRobot s := by
  refine ⟨⟨fun k i found => ?_, fun k i found => ?_⟩, fun i roomtype q found p mem => ?_⟩
  · rw [table] at found
    cases found
  · rw [table] at found
    cases found
  · rw [empty i roomtype q found] at mem
    cases mem

theorem init_leveled : Leveled conf (State.init conf) ∧ Told isRobot (State.init conf) := by
  have start : Leveled conf _ ∧ Told isRobot _ := leveled_of_empty (s := {
    objs := fun _ => newQueueObj conf 0 GameSubType.Default [] []
    made := 0
    MatchQueue := fun _ => none
    MatchUserArr := fun _ => none
    RoomMatchCfg := fun _ _ => []
    refs := 0
    sent := [] }) (fun _ => rfl) fun i roomtype q found => by
      have queues := (@newQueueObj_fields conf 0 GameSubType.Default [] []).2
      replace found := (congrFun queues roomtype).symm.trans found
      split at found
      · rw [← Option.some.inj found]
      · cases found
  have first := getMatchQueueObj_got start.1 start.2 GameType.NoShuffle GameSubType.Default []
  have second := getMatchQueueObj_got first.leveled first.told GameType.SevenSparrow
    GameSubType.Default []
  exact ⟨second.leveled, second.told⟩

/-- What `StartMatch` leaves behind. -/
structure Started (conf : Conf) (isRobot : Text → Bool) (s t : State) (gameType roomtype : Nat)
    (userId : Text) : Prop where
  leveled : Leveled conf t
  told : Told isRobot t
  others : ∀ id, id ≠ userId → t.MatchUserArr id = s.MatchUserArr id
  sent : t.sent = s.sent
  recorded : roomtype ∈ (levels conf gameType).map SData.room_type → (t.MatchUserArr userId).isSome
  kept : (s.MatchUserArr userId).isSome → (t.MatchUserArr userId).isSome

theorem startMatch_started {now gameType roomtype : Nat} {userData : UserData}
    {gameSubType : SubType} (leveled : Leveled conf s) (told : Told isRobot s)
    (robot : userData.robot = true → isRobot userData.id = true) :
    Started conf isRobot s (s.StartMatch conf now gameType roomtype userData gameSubType).1 gameType
      roomtype userData.id := by
  rw [StartMatch]
  split
  · rename_i unknown
    refine ⟨leveled, told, fun _ _ => rfl, rfl, fun listed => ?_, fun recorded => recorded⟩
    rw [levels, unknown] at listed
    cases listed
  · split
    · rename_i recorded
      exact ⟨leveled, told, fun _ _ => rfl, rfl, fun _ => recorded, fun _ => recorded⟩
    · rename_i off
      have got := @getMatchQueueObj_got conf { s with refs := s.refs + 1 } isRobot
        ⟨leveled.key, leveled.level⟩ told gameType gameSubType userData.id
      simp only
      generalize State.GetMatchQueueObj conf { s with refs := s.refs + 1 } gameType gameSubType
        userData.id = pair at got ⊢
      obtain ⟨r, i⟩ := pair
      simp only [AddPlayer]
      cases here : (r.objs i).queues roomtype with
      | none =>
          refine ⟨got.leveled, got.told, fun id _ => congrFun got.recorded id, got.sent,
            fun listed => ?_, fun recorded => absurd recorded off⟩
          have some := got.level roomtype listed
          rw [here] at some
          cases some
      | some q =>
          refine ⟨⟨?_, ?_⟩, ?_, ?_, got.sent, ?_, ?_⟩
          · intro k j found
            obtain ⟨key, made⟩ := got.leveled.key k j found
            exact ⟨setQueue_queueKey.trans key, made⟩
          · intro k j found level listed
            rw [setQueue_same MatchQueueObj.gameType fun _ _ => rfl] at listed
            have opened := got.leveled.level k j found level listed
            simp only [setQueue_queues]
            split
            · rfl
            · exact opened
          · intro j level q' found p mem bot
            simp only [setQueue_queues] at found
            split at found
            · obtain rfl := Option.some.inj found
              cases List.mem_append.mp mem with
              | inl old => exact got.told i roomtype q here p old bot
              | inr new =>
                  obtain rfl := List.mem_singleton.mp new
                  exact robot bot
            · exact got.told j level q' found p mem bot
          · intro id other
            simp only [Function.update_of_ne other]
            exact congrFun got.recorded id
          · intro _
            simp only [Function.update_self, Option.isSome_some]
          · intro _
            simp only [Function.update_self, Option.isSome_some]

/-- What taking a user out of his queue leaves behind. -/
structure Removed (isRobot : Text → Bool) (s t : State) : Prop where
  evolves : Evolves s t
  called : ∀ id, t.called id = s.called id
  recorded : ∀ id, isRobot id = false → t.MatchUserArr id = s.MatchUserArr id

theorem Removed.refl (s : State) : Removed isRobot s s :=
  ⟨.refl s, fun _ => rfl, fun _ _ => rfl⟩

theorem exitRobots_removed {queue : List Player}
    (told : ∀ p ∈ queue, p.robot = true → isRobot p.id = true) :
    Removed isRobot s (s.exitRobots queue) := by
  refine ⟨⟨rfl, fun _ _ found => found, fun _ => rfl, fun _ => rfl, fun _ _ => rfl,
    fun _ _ q found _ mem => ⟨q, found, mem⟩⟩, fun id => ?_, fun id user => ?_⟩
  · rw [called_append (s := s) (t := s.exitRobots queue) _ rfl id]
    have none : ∀ robots : List Player,
        (robots.map fun p => Sent.exitRobot p.addr).filterMap roomOf = [] := by
      intro robots
      induction robots with
      | nil => rfl
      | cons p robots ih => exact ih
    rw [none]
    rfl
  · apply if_neg
    intro mem
    obtain ⟨p, robot, rfl⟩ := List.mem_map.mp mem
    have known := told p (List.mem_filter.mp robot).1 (List.mem_filter.mp robot).2
    rw [known] at user
    cases user

theorem remove_removed (told : Told isRobot s) (r : Remove) : Removed isRobot s (s.remove r) := by
  rw [remove]
  cases here : (s.objs r.obj).queues r.roomtype with
  | none => exact .refl s
  | some q =>
      simp only
      split
      · have set := works_setQueue (s := s) (r :=
          { q with queue := q.queue.eraseP fun v => v.ref = r.player.ref }) here
          fun p mem => List.mem_of_mem_eraseP mem
        split
        · have out := exitRobots_removed (s := (s.setQueue r.obj r.roomtype
            { q with queue := q.queue.eraseP fun v => v.ref = r.player.ref }).dropQueue r.obj)
            fun p mem => told r.obj r.roomtype q here p mem
          refine ⟨(set.1.trans (works_dropQueue r.obj).1).trans out.evolves, fun id => ?_,
            fun id user => ?_⟩
          · rw [out.called]
            rfl
          · rw [out.recorded id user]
            rfl
        · exact ⟨set.1, fun _ => rfl, fun _ _ => rfl⟩
      · exact .refl s

/-- What `MatchCancel` leaves behind, with its answer. -/
structure Cancelled (isRobot : Text → Bool) (s : State) (userId : Text) (done : State × Bool) :
    Prop where
  evolves : Evolves s done.1
  called : ∀ id, done.1.called id = s.called id
  others : ∀ id, id ≠ userId → isRobot id = false →
    done.1.MatchUserArr id = s.MatchUserArr id
  own : done.1.MatchUserArr userId = none
  answer : done.2 = (s.MatchUserArr userId).isSome

theorem matchCancel_cancelled (told : Told isRobot s) (userId : Text) :
    Cancelled isRobot s userId (s.MatchCancel userId) := by
  rw [MatchCancel]
  cases recorded : s.MatchUserArr userId with
  | none =>
      simp only
      exact ⟨.refl s, fun _ => rfl, fun _ _ _ => rfl, recorded, by rw [recorded]; rfl⟩
  | some r =>
      have removed := remove_removed told r
      refine ⟨⟨removed.evolves.made, removed.evolves.table, removed.evolves.game,
        removed.evolves.key, removed.evolves.level, removed.evolves.player⟩,
        removed.called, ?_, ?_, ?_⟩
      · intro id other user
        simp only [Function.update_of_ne other]
        exact removed.recorded id user
      · simp only [Function.update_self]
      · rw [recorded]
        rfl

end State

namespace MatchUser
variable {cfg : StartConf} {u : MatchUser} {s t : State} {id : Text}

/-- An error changes neither the state nor what is sent; success sends one `StartMatch`. -/
structure Contract (u : MatchUser) (id : Text) (gameType roomLevel : Nat)
    (done : MatchUser × RetVal) : Prop where
  error : done.2 ≠ .succeed_1 → done.1.roomState = u.roomState ∧ done.1.sent = u.sent
  success : done.2 = .succeed_1 → done.1.roomState = .Matching ∧
    ∃ userData gameSubType, userData.id = id ∧
      done.1.sent = u.sent ++ [.StartMatch gameType roomLevel userData gameSubType]

theorem find_level {l : List SData} {roomLevel : Nat} :
    (l.find? fun sData => sData.room_type = roomLevel) = none ↔
      roomLevel ∉ l.map SData.room_type := by
  simp only [List.find?_eq_none, decide_eq_true_eq, List.mem_map, not_exists, not_and]

/-- What a request does: nothing, or write the state, and then send a message or not. -/
theorem roomStartMatch_cases (idArr : List Text) (gameType roomLevel : Nat) (prison : Bool) :
    (¬u.Admitted cfg gameType roomLevel ∧ ∃ ret, ret ≠ .succeed_1 ∧
      u.RoomStartMatch cfg id idArr gameType roomLevel prison = (u, ret)) ∨
    (u.Admitted cfg gameType roomLevel ∧
      ¬(gameType = GameType.NoShuffle ∨ gameType = GameType.SevenSparrow) ∧
      u.RoomStartMatch cfg id idArr gameType roomLevel prison =
        ({ u with roomState := .Matching }, .error_3)) ∨
    (u.Admitted cfg gameType roomLevel ∧
      (gameType = GameType.NoShuffle ∨ gameType = GameType.SevenSparrow) ∧
      ∃ gameSubType, u.RoomStartMatch cfg id idArr gameType roomLevel prison =
        ({ u with
          roomState := .Matching
          sent := u.sent ++ [.StartMatch gameType roomLevel ⟨id, u.addr, u.gold, false, false⟩
            gameSubType] }, .succeed_1)) := by
  simp only [RoomStartMatch]
  split
  · rename_i matching
    refine .inl ⟨fun admitted => ?_, _, RetVal.noConfusion, rfl⟩
    rw [admitted.1] at matching
    cases matching
  · split
    · rename_i busy
      exact .inl ⟨fun admitted => busy admitted.1, _, RetVal.noConfusion, rfl⟩
    · rename_i idle
      split
      · rename_i missing
        refine .inl ⟨fun admitted => ?_, _, RetVal.noConfusion, rfl⟩
        exact find_level.mp missing admitted.2.1
      · rename_i found
        have listed : roomLevel ∈ (levels cfg.conf gameType).map SData.room_type := by
          refine by_contra fun missing => ?_
          rw [find_level.mpr missing] at found
          cases found
        split
        · rename_i outside
          exact .inl ⟨fun admitted => admitted.2.2 outside, _, RetVal.noConfusion, rfl⟩
        · rename_i inside
          have admitted : u.Admitted cfg gameType roomLevel :=
            ⟨not_not.mp idle, listed, inside⟩
          split
          · rename_i matched
            exact .inr (.inr ⟨admitted, matched, _, rfl⟩)
          · rename_i other
            exact .inr (.inl ⟨admitted, other, rfl⟩)

theorem contract_iff (idArr : List Text) (gameType roomLevel : Nat) (prison : Bool) :
    u.Contract id gameType roomLevel
        (u.RoomStartMatch cfg id idArr gameType roomLevel prison) ↔
      u.Supported cfg gameType roomLevel := by
  obtain ⟨refused, ret, error, done⟩ | ⟨admitted, other, done⟩ | ⟨admitted, game, _, done⟩ :=
    @roomStartMatch_cases cfg u id idArr gameType roomLevel prison
  · rw [done]
    refine iff_of_true ⟨fun _ => ⟨rfl, rfl⟩, fun success => absurd success error⟩ ?_
    exact fun admitted => absurd admitted refused
  · rw [done]
    refine iff_of_false (fun contract => ?_) fun supported => other (supported admitted)
    have same := (contract.error RetVal.noConfusion).1
    rw [admitted.1] at same
    cases same
  · rw [done]
    exact iff_of_true ⟨fun error => absurd rfl error, fun _ => ⟨rfl, _, _, rfl, rfl⟩⟩ fun _ => game

/-- The service knows the user, or is about to, or has given him a room that has yet to ask for him. -/
def Waiting (u : MatchUser) (mgr : State) (id : Text) : Prop :=
  (mgr.MatchUserArr id).isSome ∨
  (∃ gameType roomtype userData gameSubType,
    ToMgr.StartMatch gameType roomtype userData gameSubType ∈ u.sent) ∨
  u.seated < mgr.called id

/-- What is kept of a user. Where he is matching but nothing waits for him, he has been taken out of
his queue and the answer is on its way. -/
structure Tracked (cfg : StartConf) (mgr : State) (id : Text) (u : MatchUser) : Prop where
  own : ∀ gameType roomtype userData gameSubType,
    ToMgr.StartMatch gameType roomtype userData gameSubType ∈ u.sent →
    userData.id = id ∧ userData.robot = false ∧ cfg.isRobot id = false ∧
      roomtype ∈ (levels cfg.conf gameType).map SData.room_type
  left : u.left ≤ u.seated
  seated : u.seated ≤ mgr.called id
  waiting : cfg.isRobot id = false → u.roomState = .Matching →
    u.Waiting mgr id ∨ true ∈ u.answers

theorem Tracked.serves (tracked : u.Tracked cfg s id) (called : s.called id ≤ t.called id)
    (kept : cfg.isRobot id = false → (s.MatchUserArr id).isSome →
      (t.MatchUserArr id).isSome ∨ s.called id < t.called id) : u.Tracked cfg t id := by
  refine ⟨tracked.own, tracked.left, tracked.seated.trans called, fun user matching => ?_⟩
  obtain (recorded | sent | room) | answered := tracked.waiting user matching
  · obtain recorded | more := kept user recorded
    · exact .inl (.inl recorded)
    · exact .inl (.inr (.inr (lt_of_le_of_lt tracked.seated more)))
  · exact .inl (.inr (.inl sent))
  · exact .inl (.inr (.inr (lt_of_lt_of_le room called)))
  · exact .inr answered

theorem Tracked.roomStartMatch (tracked : u.Tracked cfg s id) (user : cfg.isRobot id = false)
    {idArr : List Text} {gameType roomLevel : Nat} {prison : Bool}
    (supported : u.Supported cfg gameType roomLevel) :
    (u.RoomStartMatch cfg id idArr gameType roomLevel prison).1.Tracked cfg s id := by
  obtain ⟨_, ret, _, done⟩ | ⟨admitted, other, _⟩ | ⟨admitted, _, gameSubType, done⟩ :=
    @roomStartMatch_cases cfg u id idArr gameType roomLevel prison
  · rw [done]
    exact tracked
  · exact absurd (supported admitted) other
  · rw [done]
    refine ⟨fun game roomtype userData subType mem => ?_, tracked.left, tracked.seated,
      fun _ _ => ?_⟩
    · cases List.mem_append.mp mem with
      | inl old => exact tracked.own game roomtype userData subType old
      | inr new =>
          obtain ⟨rfl, rfl, rfl, rfl⟩ := ToMgr.StartMatch.inj (List.mem_singleton.mp new)
          exact ⟨rfl, rfl, user, admitted.2.1⟩
    · exact .inl (.inr (.inl ⟨gameType, roomLevel, _, gameSubType,
        List.mem_append_right _ (List.mem_singleton_self _)⟩))

theorem Tracked.roomMatchCancel (tracked : u.Tracked cfg s id) :
    u.RoomMatchCancel.Tracked cfg s id := by
  rw [RoomMatchCancel]
  split
  · refine ⟨fun game roomtype userData subType mem => ?_, tracked.left, tracked.seated,
      fun user matching => ?_⟩
    · cases List.mem_append.mp mem with
      | inl old => exact tracked.own game roomtype userData subType old
      | inr new => cases List.mem_singleton.mp new
    · obtain (recorded | ⟨game, roomtype, data, subType, mem⟩ | room) | answered :=
        tracked.waiting user matching
      · exact .inl (.inl recorded)
      · exact .inl (.inr (.inl ⟨game, roomtype, data, subType, List.mem_append_left _ mem⟩))
      · exact .inl (.inr (.inr room))
      · exact .inr answered
  · exact tracked

theorem Tracked.cancelled {answer : Bool} {answers : List Bool} (tracked : u.Tracked cfg s id)
    (first : u.answers = answer :: answers) :
    (MatchUser.cancelled { u with answers := answers } answer).Tracked cfg s id := by
  cases answer with
  | true => exact ⟨tracked.own, tracked.left, tracked.seated, fun _ idle => nomatch idle⟩
  | false =>
      refine ⟨tracked.own, tracked.left, tracked.seated, fun user matching => ?_⟩
      refine (tracked.waiting user matching).imp (fun waits => waits) fun answered => ?_
      rw [first] at answered
      cases List.mem_cons.mp answered with
      | inl this => cases this
      | inr later => exact later

theorem Tracked.roomUserInfoGet (tracked : u.Tracked cfg s id) (room : u.seated < s.called id) :
    MatchUser.Tracked cfg s id { u with seated := u.seated + 1, roomState := .Gameing } :=
  ⟨tracked.own, tracked.left.trans (Nat.le_succ _), room, fun _ gaming => nomatch gaming⟩

theorem Tracked.exitRoom (tracked : u.Tracked cfg s id) (inside : u.left < u.seated) :
    MatchUser.Tracked cfg s id { u with left := u.left + 1, roomState := .Idle } :=
  ⟨tracked.own, inside, tracked.seated, fun _ idle => nomatch idle⟩

end MatchUser

namespace World
variable {cfg : StartConf} {s t : World} {id : Text} {u : MatchUser}

structure Inv (cfg : StartConf) (s : World) : Prop where
  leveled : s.mgr.Leveled cfg.conf
  told : s.mgr.Told cfg.isRobot
  tracked : ∀ id, (s.users id).Tracked cfg s.mgr id

theorem Inv.setUser (inv : s.Inv cfg) (tracked : u.Tracked cfg s.mgr id) :
    (s.setUser id u).Inv cfg := by
  refine ⟨inv.leveled, inv.told, fun id' => ?_⟩
  simp only [World.setUser, Function.update_apply]
  split
  · rename_i same
    rw [same]
    exact tracked
  · exact inv.tracked id'

/-- A change of the service that forgets no user whom it gives no room. -/
theorem Inv.serves {mgr : State} (inv : s.Inv cfg) (leveled : mgr.Leveled cfg.conf)
    (told : mgr.Told cfg.isRobot) (called : ∀ id, s.mgr.called id ≤ mgr.called id)
    (kept : ∀ id, cfg.isRobot id = false → (s.mgr.MatchUserArr id).isSome →
      (mgr.MatchUserArr id).isSome ∨ s.mgr.called id < mgr.called id) :
    World.Inv cfg { s with mgr := mgr } :=
  ⟨leveled, told, fun id => (inv.tracked id).serves (called id) (kept id)⟩

theorem Inv.works {mgr : State} (inv : s.Inv cfg) (works : s.mgr.Works mgr) :
    World.Inv cfg { s with mgr := mgr } := by
  refine inv.serves (inv.leveled.evolves works.1) (inv.told.evolves works.1)
    (fun id => (works.2 id).called) fun id _ recorded => ?_
  obtain same | more := (works.2 id).recorded
  · rw [same]
    exact .inl recorded
  · exact .inr more

theorem Inv.started {mgr : State} {gameType roomtype : Nat} {userId : Text} (inv : s.Inv cfg)
    (started : State.Started cfg.conf cfg.isRobot s.mgr mgr gameType roomtype userId) :
    World.Inv cfg { s with mgr := mgr } := by
  refine inv.serves started.leveled started.told (fun id => ?_) fun id _ recorded => ?_
  · rw [State.called, State.called, State.rooms_eq, State.rooms_eq, started.sent]
  · by_cases own : id = userId
    · subst own
      exact .inl (started.kept recorded)
    · rw [started.others id own]
      exact .inl recorded

theorem Inv.receive {now : Nat} (inv : s.Inv cfg) (received : s.receive cfg id now = some t) :
    t.Inv cfg := by
  have tracked := inv.tracked id
  simp only [World.receive] at received
  split at received
  · cases received
  · rename_i gameType roomtype userData gameSubType sent message
    obtain rfl := Option.some.inj received
    obtain ⟨own, person, user, listed⟩ := tracked.own gameType roomtype userData gameSubType
      (message ▸ List.mem_cons_self)
    have started := @State.startMatch_started cfg.conf s.mgr cfg.isRobot now gameType roomtype
      userData gameSubType inv.leveled inv.told fun robot => by
        rw [person] at robot
        cases robot
    have after := inv.started started
    refine after.setUser (s := { s with mgr := _ }) ?_
    have here := after.tracked id
    refine ⟨fun game level data subType mem => ?_, here.left, here.seated, fun _ _ => ?_⟩
    · apply tracked.own game level data subType
      rw [message]
      exact List.mem_cons_of_mem _ mem
    · rw [own] at started
      exact .inl (.inl (started.recorded listed))
  · rename_i sent message
    obtain rfl := Option.some.inj received
    have cancelled := State.matchCancel_cancelled inv.told id
    refine ⟨inv.leveled.evolves cancelled.evolves, inv.told.evolves cancelled.evolves,
      fun id' => ?_⟩
    simp only [World.setUser, Function.update_apply]
    split
    · rename_i same
      subst same
      refine ⟨fun game level data subType mem => ?_, tracked.left, ?_, fun user matching => ?_⟩
      · apply tracked.own game level data subType
        rw [message]
        exact List.mem_cons_of_mem _ mem
      · simp only [cancelled.called]
        exact tracked.seated
      · obtain (recorded | ⟨game, level, data, subType, mem⟩ | room) | answered :=
          tracked.waiting user matching
        · refine .inr (List.mem_append_right _ ?_)
          rw [cancelled.answer, recorded]
          exact List.mem_singleton_self _
        · rw [message] at mem
          cases List.mem_cons.mp mem with
          | inl first => cases first
          | inr later => exact .inl (.inr (.inl ⟨game, level, data, subType, later⟩))
        · refine .inl (.inr (.inr ?_))
          simp only [cancelled.called]
          exact room
        · exact .inr (List.mem_append_left _ answered)
    · rename_i other
      refine (inv.tracked id').serves (le_of_eq (cancelled.called id').symm)
        fun user recorded => ?_
      rw [cancelled.others id' other user]
      exact .inl recorded

theorem Inv.step {e : WorldEvent} (inv : s.Inv cfg) (supported : s.Supported cfg e)
    (stepped : World.step cfg s e = some t) : t.Inv cfg := by
  cases e with
  | RoomStartMatch id gameType roomLevel prison =>
      simp only [World.step] at stepped
      split at stepped
      · cases stepped
      · rename_i user
        obtain rfl := Option.some.inj stepped
        exact inv.setUser ((inv.tracked id).roomStartMatch (Bool.eq_false_of_not_eq_true user)
          supported)
  | RoomMatchCancel id =>
      obtain rfl := Option.some.inj stepped
      exact inv.setUser (inv.tracked id).roomMatchCancel
  | mgr id now => exact inv.receive stepped
  | answer id =>
      simp only [World.step] at stepped
      split at stepped
      · cases stepped
      · rename_i answer answers first
        obtain rfl := Option.some.inj stepped
        exact inv.setUser ((inv.tracked id).cancelled first)
  | RoomUserInfoGet id =>
      simp only [World.step] at stepped
      split at stepped
      · rename_i room
        obtain rfl := Option.some.inj stepped
        exact inv.setUser ((inv.tracked id).roomUserInfoGet room)
      · cases stepped
  | exitRoom id =>
      simp only [World.step] at stepped
      split at stepped
      · rename_i inside
        obtain rfl := Option.some.inj stepped
        exact inv.setUser ((inv.tracked id).exitRoom inside)
      · cases stepped
  | robot now gameType roomtype userData gameSubType =>
      simp only [World.step] at stepped
      split at stepped
      · rename_i robot
        obtain rfl := Option.some.inj stepped
        exact inv.started (State.startMatch_started inv.leveled inv.told fun _ => robot.2)
      · cases stepped
  | tick queueKey now =>
      simp only [World.step, Match.step, Option.map_eq_some_iff] at stepped
      obtain ⟨_, ⟨i, _, rfl⟩, rfl⟩ := stepped
      exact inv.works State.works_Tick
  | setRoomMatchCfg gameType arr =>
      obtain rfl := Option.some.inj stepped
      refine inv.works ?_
      rw [State.SetRoomMatchCfg]
      split
      · exact ⟨⟨rfl, fun _ _ found => found, fun _ => rfl, fun _ => rfl, fun _ _ => rfl,
          fun _ _ q found _ mem => ⟨q, found, mem⟩⟩, fun id => ⟨le_refl _, .inl rfl⟩⟩
      · exact .refl _
  | user id gold roomGameCount newUserGameArr =>
      obtain rfl := Option.some.inj stepped
      have tracked := inv.tracked id
      exact inv.setUser ⟨tracked.own, tracked.left, tracked.seated, tracked.waiting⟩

theorem init_inv (users : Text → MatchUser) : (World.init cfg users).Inv cfg := by
  obtain ⟨leveled, told⟩ := @State.init_leveled cfg.conf cfg.isRobot
  refine ⟨leveled, told, fun id => ⟨fun game roomtype data subType mem => ?_, le_refl _,
    Nat.zero_le _, fun _ matching => ?_⟩⟩
  · cases mem
  · cases matching

theorem run_inv {users : Text → MatchUser} {events : List WorldEvent}
    (run : Run (World.step cfg) (World.Supported cfg) (World.init cfg users) events s) :
    s.Inv cfg :=
  run.invariant (World.Inv cfg) (init_inv users) fun _ _ _ inv supported stepped =>
    inv.step supported stepped

/-- What happens for a user who cancels. -/
def Cancels (id : Text) : WorldEvent → Prop
  | .RoomMatchCancel other => other = id
  | .mgr other _ => other = id
  | .answer other => other = id
  | _ => False

/-- The user can cancel his way back. -/
def Returns (cfg : StartConf) (s : World) (id : Text) : Prop :=
  ∃ back t, (∀ e ∈ back, Cancels id e) ∧ Run (World.step cfg) anyStep s back t ∧
    (t.users id).roomState = .Idle

theorem Returns.first {e : WorldEvent} (stepped : World.step cfg s e = some t)
    (cancels : Cancels id e) (rest : t.Returns cfg id) : s.Returns cfg id := by
  obtain ⟨back, v, all, run, idle⟩ := rest
  refine ⟨[e] ++ back, v, fun e' mem => ?_, .append (.next .refl trivial stepped) run, idle⟩
  cases List.mem_cons.mp mem with
  | inl this => exact this ▸ cancels
  | inr later => exact all e' later

/-- He is idle with the first answer that he is out of his queue. -/
theorem returns_answered {answers : List Bool} (ahead : (s.users id).answers = answers)
    (answered : true ∈ answers) : s.Returns cfg id := by
  induction answers generalizing s with
  | nil => cases answered
  | cons answer answers ih =>
      have stepped : World.step cfg s (.answer id) =
          some (s.setUser id ({ s.users id with answers := answers }.cancelled answer)) := by
        simp only [World.step, ahead]
      refine Returns.first stepped rfl ?_
      cases answer with
      | true =>
          refine ⟨[], _, fun e mem => (nomatch mem), .refl, ?_⟩
          simp only [World.setUser, Function.update_self]
          rfl
      | false =>
          apply ih
          · simp only [World.setUser, Function.update_self]
            rfl
          · cases List.mem_cons.mp answered with
            | inl this => cases this
            | inr later => exact later

/-- What the service taking a message leaves behind. -/
structure Taken (s t : World) (id : Text) (message : ToMgr) (sent : List ToMgr) : Prop where
  sent : (t.users id).sent = sent
  answers : true ∈ (s.users id).answers → true ∈ (t.users id).answers
  start : message ≠ .MatchCancel → (t.mgr.MatchUserArr id).isSome
  cancel : message = .MatchCancel → (s.mgr.MatchUserArr id).isSome → true ∈ (t.users id).answers

theorem Inv.takes {message : ToMgr} {sent : List ToMgr} (inv : s.Inv cfg)
    (ahead : (s.users id).sent = message :: sent) :
    ∃ t, World.step cfg s (.mgr id 0) = some t ∧ t.Inv cfg ∧ Taken s t id message sent := by
  have tracked := inv.tracked id
  simp only [World.step]
  cases message with
  | StartMatch gameType roomtype userData gameSubType =>
      have received : s.receive cfg id 0 = some { s.setUser id { s.users id with sent := sent } with
          mgr := (s.mgr.StartMatch cfg.conf 0 gameType roomtype userData gameSubType).1 } := by
        simp only [World.receive, ahead]
      obtain ⟨own, person, _, listed⟩ := tracked.own gameType roomtype userData gameSubType
        (ahead ▸ List.mem_cons_self)
      have started := @State.startMatch_started cfg.conf s.mgr cfg.isRobot 0 gameType roomtype
        userData gameSubType inv.leveled inv.told fun robot => by
          rw [person] at robot
          cases robot
      rw [own] at started
      refine ⟨_, received, inv.receive received, ?_, fun answered => ?_,
        fun _ => started.recorded listed, fun cancel => nomatch cancel⟩
      · simp only [World.setUser, Function.update_self]
      · simp only [World.setUser, Function.update_self]
        exact answered
  | MatchCancel =>
      have received : s.receive cfg id 0 = some { s.setUser id { s.users id with
          sent := sent, answers := (s.users id).answers ++ [(s.mgr.MatchCancel id).2] } with
          mgr := (s.mgr.MatchCancel id).1 } := by
        simp only [World.receive, ahead]
      refine ⟨_, received, inv.receive received, ?_, fun answered => ?_,
        fun start => absurd rfl start, fun _ recorded => ?_⟩
      · simp only [World.setUser, Function.update_self]
      · simp only [World.setUser, Function.update_self]
        exact List.mem_append_left _ answered
      · simp only [World.setUser, Function.update_self]
        rw [(State.matchCancel_cancelled inv.told id).answer, recorded]
        exact List.mem_append_right _ (List.mem_singleton_self _)

/-- With a request to cancel as the last message, all before it are taken in turn: where the service
gets to know the user, it finds him with a later one. -/
theorem returns_sent {sent : List ToMgr} (inv : s.Inv cfg)
    (ahead : (s.users id).sent = sent ++ [.MatchCancel])
    (waiting : (s.mgr.MatchUserArr id).isSome ∨ (∃ message ∈ sent, message ≠ .MatchCancel) ∨
      true ∈ (s.users id).answers) : s.Returns cfg id := by
  induction sent generalizing s with
  | nil =>
      obtain ⟨t, stepped, _, taken⟩ := inv.takes ahead
      refine Returns.first stepped rfl (returns_answered rfl ?_)
      obtain recorded | ⟨_, mem, _⟩ | answered := waiting
      · exact taken.cancel rfl recorded
      · cases mem
      · exact taken.answers answered
  | cons message sent ih =>
      obtain ⟨t, stepped, inv, taken⟩ := inv.takes ahead
      refine Returns.first stepped rfl (ih inv taken.sent ?_)
      by_cases cancel : message = .MatchCancel
      · obtain recorded | ⟨later, mem, start⟩ | answered := waiting
        · exact .inr (.inr (taken.cancel cancel recorded))
        · cases List.mem_cons.mp mem with
          | inl this => exact absurd (this.trans cancel) start
          | inr mem => exact .inr (.inl ⟨later, mem, start⟩)
        · exact .inr (.inr (taken.answers answered))
      · exact .inl (taken.start cancel)

/-- The room of a match asks for its player and ends. -/
theorem seat_exit (tracked : (s.users id).Tracked cfg s.mgr id)
    (room : (s.users id).seated < s.mgr.called id) :
    ∃ t, Run (World.step cfg) anyStep s [.RoomUserInfoGet id, .exitRoom id] t ∧
      (t.users id).roomState = .Idle := by
  have asked : World.step cfg s (.RoomUserInfoGet id) = some (s.setUser id
      { s.users id with seated := (s.users id).seated + 1, roomState := .Gameing }) := if_pos room
  generalize here : s.setUser id
    { s.users id with seated := (s.users id).seated + 1, roomState := .Gameing } = t at asked
  have inside : (t.users id).left < (t.users id).seated := by
    rw [← here]
    simp only [World.setUser, Function.update_self]
    exact Nat.lt_succ_of_le tracked.left
  have ended : World.step cfg t (.exitRoom id) = some (t.setUser id
      { t.users id with left := (t.users id).left + 1, roomState := .Idle }) := if_pos inside
  refine ⟨_, .next (.next .refl trivial asked) trivial ended, ?_⟩
  simp only [World.setUser, Function.update_self]

/-- A matching user can cancel, or his match is on the way and ends. -/
theorem Inv.returns (inv : s.Inv cfg) (user : cfg.isRobot id = false)
    (matching : (s.users id).roomState = .Matching) :
    s.Returns cfg id ∨
      ∃ t, Run (World.step cfg) anyStep s [.RoomUserInfoGet id, .exitRoom id] t ∧
        (t.users id).roomState = .Idle := by
  have stepped : World.step cfg s (.RoomMatchCancel id) = some (s.setUser id
      { s.users id with sent := (s.users id).sent ++ [.MatchCancel] }) := by
    simp only [World.step, MatchUser.RoomMatchCancel, if_pos matching]
  have cancel : ((s.mgr.MatchUserArr id).isSome ∨
      (∃ message ∈ (s.users id).sent, message ≠ .MatchCancel) ∨ true ∈ (s.users id).answers) →
      s.Returns cfg id := by
    intro waiting
    have after := inv.step (e := .RoomMatchCancel id) trivial stepped
    refine Returns.first stepped rfl (@returns_sent _ _ _ (s.users id).sent after ?_ ?_)
    · simp only [World.setUser, Function.update_self]
    · simp only [World.setUser, Function.update_self]
      exact waiting
  obtain (recorded | ⟨_, _, _, _, mem⟩ | room) | answered :=
    (inv.tracked id).waiting user matching
  · exact .inl (cancel (.inl recorded))
  · exact .inl (cancel (.inr (.inl ⟨_, mem, ToMgr.noConfusion⟩)))
  · exact .inr (seat_exit (inv.tracked id) room)
  · exact .inl (cancel (.inr (.inr answered)))

/-- A request keeps its promise if and only if the game is one of those that are matched where the level
is open to the user; and where all requests are so, a user who is matching is known to the service or a
match is on its way, and he gets back by cancelling or by the end of the match. -/
theorem run_returns (cfg : StartConf) :
    (∀ (u : MatchUser) (id : Text) (idArr : List Text) (gameType roomLevel : Nat) (prison : Bool),
      u.Contract id gameType roomLevel (u.RoomStartMatch cfg id idArr gameType roomLevel prison) ↔
        u.Supported cfg gameType roomLevel) ∧
    ∀ (users : Text → MatchUser) (events : List WorldEvent) (s : World) (id : Text),
      cfg.isRobot id = false →
      Run (World.step cfg) (World.Supported cfg) (World.init cfg users) events s →
      (s.users id).roomState = .Matching →
        ((s.users id).Waiting s.mgr id ∨ true ∈ (s.users id).answers) ∧
        (s.Returns cfg id ∨
          ∃ t, Run (World.step cfg) anyStep s [.RoomUserInfoGet id, .exitRoom id] t ∧
            (t.users id).roomState = .Idle) := by
  refine ⟨fun u id idArr gameType roomLevel prison =>
    MatchUser.contract_iff idArr gameType roomLevel prison, ?_⟩
  intro users events s id user run matching
  have inv := run_inv run
  exact ⟨(inv.tracked id).waiting user matching, inv.returns user matching⟩

/-- One level for each of the three games, for any gold. -/
def threeGames : StartConf where
  conf := { oneLevel with
    roomGroup := fun gameType =>
      if gameType = 1 ∨ gameType = 2 ∨ gameType = 3 then some [⟨1, 3000, 5000⟩] else none
    distinct := by
      intro gameType l found
      split at found
      · cases found
        decide
      · nomatch found }
  gold := fun _ _ => ⟨0, -1⟩
  newUserGames := 10
  init_cards := fun _ => []
  isRobot := fun _ => false

def newcomer : MatchUser := ⟨1, 100, fun _ _ => 0, [], .Idle, [], [], 0, 0⟩

/-- A user starts and his message is taken. -/
theorem run_returns_started : ∃ s,
    Run (World.step threeGames) (World.Supported threeGames) (World.init threeGames fun _ => newcomer)
      [.RoomStartMatch ['a'] 1 1 false, .mgr ['a'] 0] s ∧
    (s.users ['a']).roomState = .Matching ∧
    ((s.users ['a']).Waiting s.mgr ['a'] ∨ true ∈ (s.users ['a']).answers) := by
  have run : Run (World.step threeGames) (World.Supported threeGames)
      (World.init threeGames fun _ => newcomer) [.RoomStartMatch ['a'] 1 1 false, .mgr ['a'] 0] _ :=
    .next (.next .refl (fun _ => .inl rfl) rfl) trivial rfl
  have matching : ∀ s, exec (World.step threeGames) (World.init threeGames fun _ => newcomer)
      [.RoomStartMatch ['a'] 1 1 false, .mgr ['a'] 0] = some s →
      (s.users ['a']).roomState = .Matching := by
    rintro s ⟨⟩
    rfl
  refine ⟨_, run, matching _ rfl, ?_⟩
  exact ((run_returns threeGames).2 _ _ _ ['a'] rfl run (matching _ rfl)).1

/-- A user who is matching while nothing waits for him. -/
structure Lost (s : World) (id : Text) : Prop where
  matching : (s.users id).roomState = .Matching
  waiting : ¬(s.users id).Waiting s.mgr id
  answers : true ∉ (s.users id).answers

theorem Lost.cancels {e : WorldEvent} (lost : s.Lost id) (cancels : Cancels id e)
    (stepped : World.step cfg s e = some t) : t.Lost id := by
  obtain ⟨matching, waiting, answers⟩ := lost
  cases e with
  | RoomMatchCancel other =>
      obtain rfl := cancels
      obtain rfl := Option.some.inj stepped
      simp only [MatchUser.RoomMatchCancel, if_pos matching]
      refine ⟨?_, fun waits => waiting ?_, ?_⟩
      · simp only [World.setUser, Function.update_self]
        exact matching
      · simp only [World.setUser, Function.update_self] at waits
        refine waits.imp (fun recorded => recorded) (Or.imp ?_ fun room => room)
        rintro ⟨game, roomtype, data, subType, mem⟩
        cases List.mem_append.mp mem with
        | inl old => exact ⟨game, roomtype, data, subType, old⟩
        | inr new => cases List.mem_singleton.mp new
      · simp only [World.setUser, Function.update_self]
        exact answers
  | mgr other now =>
      obtain rfl := cancels
      simp only [World.step, World.receive] at stepped
      split at stepped
      · cases stepped
      · rename_i game roomtype data subType sent message
        refine absurd (.inr (.inl ⟨game, roomtype, data, subType, ?_⟩)) waiting
        rw [message]
        exact List.mem_cons_self
      · rename_i sent message
        have unknown : s.mgr.MatchUserArr other = none :=
          Option.not_isSome_iff_eq_none.mp fun recorded => waiting (.inl recorded)
        simp only [State.MatchCancel, unknown] at stepped
        obtain rfl := Option.some.inj stepped
        refine ⟨?_, fun waits => waiting ?_, ?_⟩
        · simp only [World.setUser, Function.update_self]
          exact matching
        · simp only [World.setUser, Function.update_self] at waits
          refine waits.imp (fun recorded => recorded) (Or.imp ?_ fun room => room)
          rintro ⟨game, roomtype, data, subType, mem⟩
          refine ⟨game, roomtype, data, subType, ?_⟩
          rw [message]
          exact List.mem_cons_of_mem _ mem
        · simp only [World.setUser, Function.update_self]
          intro answered
          cases List.mem_append.mp answered with
          | inl old => exact answers old
          | inr new => cases List.mem_singleton.mp new
  | answer other =>
      obtain rfl := cancels
      simp only [World.step] at stepped
      split at stepped
      · cases stepped
      · rename_i answer rest first
        obtain rfl := Option.some.inj stepped
        rw [first] at answers
        cases answer with
        | true => exact absurd List.mem_cons_self answers
        | false =>
            refine ⟨?_, fun waits => waiting ?_, fun answered => answers ?_⟩
            · simp only [World.setUser, Function.update_self]
              exact matching
            · simp only [World.setUser, Function.update_self] at waits
              exact waits
            · simp only [World.setUser, Function.update_self] at answered
              exact List.mem_cons_of_mem _ answered
  | RoomStartMatch _ _ _ _ => cases cancels
  | RoomUserInfoGet _ => cases cancels
  | exitRoom _ => cases cancels
  | robot _ _ _ _ _ => cases cancels
  | tick _ _ => cases cancels
  | setRoomMatchCfg _ _ => cases cancels
  | user _ _ _ _ => cases cancels

/-- Who is lost does not get back by cancelling. -/
theorem Lost.stays (lost : s.Lost id) : ¬s.Returns cfg id := by
  rintro ⟨back, t, all, run, idle⟩
  have lost : t.Lost id := by
    clear idle
    induction run with
    | refl => exact lost
    | next _ _ stepped ih =>
        refine (ih fun e mem => all e (List.mem_append_left _ mem)).cancels
          (all _ (List.mem_append_right _ (List.mem_singleton_self _))) stepped
  rw [lost.matching] at idle
  cases idle

/-- A game with levels that is not matched: the error leaves the user matching for good. -/
theorem start_fails :
    ¬newcomer.Contract ['a'] 2 1 (newcomer.RoomStartMatch threeGames ['a'] [] 2 1 false) ∧
    ∃ s, Run (World.step threeGames) anyStep (World.init threeGames fun _ => newcomer)
        [.RoomStartMatch ['a'] 2 1 false] s ∧
      (s.users ['a']).roomState = .Matching ∧
      ¬((s.users ['a']).Waiting s.mgr ['a'] ∨ true ∈ (s.users ['a']).answers) ∧
      ¬s.Returns threeGames ['a'] := by
  refine ⟨fun contract => ?_, ?_⟩
  · have same := (contract.error RetVal.noConfusion).1
    cases same
  · have run : Run (World.step threeGames) anyStep (World.init threeGames fun _ => newcomer)
        [.RoomStartMatch ['a'] 2 1 false] _ := .next .refl trivial rfl
    have alone : ∀ s, World.step threeGames (World.init threeGames fun _ => newcomer)
        (.RoomStartMatch ['a'] 2 1 false) = some s → s.Lost ['a'] := by
      rintro s ⟨⟩
      refine ⟨rfl, ?_, by decide⟩
      rintro (recorded | ⟨_, _, _, _, mem⟩ | room)
      · cases recorded
      · cases mem
      · cases room
    have lost := alone _ rfl
    exact ⟨_, run, lost.matching, fun waits => waits.elim lost.waiting lost.answers, lost.stays⟩

end World

end HuluLandlord.Match
