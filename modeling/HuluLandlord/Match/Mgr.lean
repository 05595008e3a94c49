import HuluLandlord.Transition

/-!
The service that matches players into rooms. Its queues are objects in a table under a
key; a player is recorded by the function that takes him out of his queue again, and such
a function keeps the object it was made from, also when the table has lost it. The tables
of users are told apart by `ref`, as the service compares them. The order in which the
levels of a game are visited is that of `roomGroup`. Of the data of a user only what is
read here is kept, and `inject` is left out.
-/
namespace HuluLandlord.Match

abbrev Text := List Char

def tostring (n : Nat) : Text := Nat.toDigits 10 n

namespace GameType

def NoShuffle : Nat := 1
def SevenSparrow : Nat := 3

end GameType

/-- A sub type is a number, or the key a robot was created with. -/
inductive SubType
  | num (n : Nat) | str (key : Text)
  deriving DecidableEq, Repr

def SubType.tostring : SubType → Text
  | .num n => Match.tostring n
  | .str key => key

namespace GameSubType

def Default : SubType := .num 0
def Recycle : SubType := .num 10
def NewUser : SubType := .num 20
def MatchServer : SubType := .num 100

end GameSubType

namespace RobotTagType

def Default : Nat := 0
def Pay : Nat := 11

end RobotTagType

/-- `PlayerNumObj[gameType] or 3`. -/
def PlayerNumObj (gameType : Nat) : Nat :=
  if gameType = GameType.NoShuffle then 3 else if gameType = GameType.SevenSparrow then 4 else 3

/-- What is configured of one level of a game. -/
structure SData where
  room_type : Nat
  wait_time : Nat
  gap_time : Nat
  deriving DecidableEq, Repr

structure UserData where
  id : Text
  addr : Nat
  gold : Int
  is_anchor : Bool
  robot : Bool
  deriving DecidableEq, Repr

structure Player extends UserData where
  ref : Nat
  startDt : Option Nat
  deriving DecidableEq, Repr

structure QueueObj where
  queue : List Player
  lastAddRobotDt : Nat
  deriving DecidableEq, Repr

/-- A queue object, with the variables its functions share. -/
structure MatchQueueObj where
  gameType : Nat
  gameSubType : SubType
  gameSubTypeKey : Text
  isOpenRobot : Bool
  idArrSort : Option (List Text)
  isRemoveMatchQueue : Bool
  queues : Nat → Option QueueObj

namespace MatchQueueObj

def queueKey (obj : MatchQueueObj) : Text := tostring obj.gameType ++ ['_'] ++ obj.gameSubTypeKey

def PlayerNum (obj : MatchQueueObj) : Nat := PlayerNumObj obj.gameType

end MatchQueueObj

/-- What a function `remove` keeps. -/
structure Remove where
  obj : Nat
  roomtype : Nat
  player : Player
  deriving DecidableEq, Repr

structure Room where
  gametype : Nat
  roomtype : Nat
  max_player : Nat
  players : List Player
  deriving DecidableEq, Repr

/-- What is sent to the other services. -/
inductive Sent
  | create_room (room : Room)
  | CreateRobot (gameType roomtype : Nat) (gameSubTypeKey : Text) (robotTagType : Option Nat)
  | exitRobot (addr : Nat)
  deriving DecidableEq, Repr

/-- The configuration, and the sort of the library, which need not be stable. -/
structure Conf where
  roomGroup : Nat → Option (List SData)
  distinct : ∀ gameType levels, roomGroup gameType = some levels →
    (levels.map SData.room_type).Nodup
  sort_by_gold : List Player → List Player
  perm : ∀ players, (sort_by_gold players).Perm players
  sorted : ∀ players, (sort_by_gold players).Pairwise fun a b => a.gold ≤ b.gold

/-- Of the objects those below `made` exist, and of the tables of players those below `refs`. -/
structure State where
  objs : Nat → MatchQueueObj
  made : Nat
  MatchQueue : Text → Option Nat
  MatchUserArr : Text → Option Remove
  RoomMatchCfg : Text → Nat → List Text
  refs : Nat
  sent : List Sent

/-- The rooms created so far. -/
def State.rooms (s : State) : List Room :=
  s.sent.filterMap fun
    | .create_room room => some room
    | _ => none

section
variable (conf : Conf)

def levels (gameType : Nat) : List SData := (conf.roomGroup gameType).getD []

/-- The object of a request, as `GetMatchQueueObj` makes it where there is none. -/
def newQueueObj (gameType : Nat) (gameSubType : SubType) (userId : Text) (idArr : List Text) :
    MatchQueueObj :=
  let obj : MatchQueueObj := {
    gameType := gameType
    gameSubType := gameSubType
    gameSubTypeKey := gameSubType.tostring
    isOpenRobot := true
    idArrSort := none
    isRemoveMatchQueue := false
    queues := fun roomtype =>
      if roomtype ∈ (levels conf gameType).map SData.room_type then some ⟨[], 0⟩ else none }
  if gameSubType = GameSubType.Default then obj
  else if gameSubType = GameSubType.NewUser ∨ gameSubType = GameSubType.Recycle then
    { obj with
      isRemoveMatchQueue := true
      gameSubTypeKey := gameSubType.tostring ++ ['_'] ++ userId }
  else if gameSubType = GameSubType.MatchServer ∧ idArr ≠ [] then
    { obj with
      isOpenRobot := false
      idArrSort := some idArr
      isRemoveMatchQueue := true
      gameSubTypeKey := gameSubType.tostring ++ ['_'] ++ idArr.flatten }
  else obj

namespace State

def GetMatchQueueObj (s : State) (gameType : Nat) (gameSubType : SubType) (userId : Text) :
    State × Nat :=
  let obj := newQueueObj conf gameType gameSubType userId (s.RoomMatchCfg userId gameType)
  match s.MatchQueue obj.queueKey with
  | some i => (s, i)
  | none =>
      ({ s with
        objs := Function.update s.objs s.made obj
        made := s.made + 1
        MatchQueue := Function.update s.MatchQueue obj.queueKey (some s.made) }, s.made)

/-- The service's start, whose objects come before any request. -/
def init : State :=
  let s : State := {
    objs := fun _ => newQueueObj conf 0 GameSubType.Default [] []
    made := 0
    MatchQueue := fun _ => none
    MatchUserArr := fun _ => none
    RoomMatchCfg := fun _ _ => []
    refs := 0
    sent := [] }
  let (s, _) := s.GetMatchQueueObj conf GameType.NoShuffle GameSubType.Default []
  let (s, _) := s.GetMatchQueueObj conf GameType.SevenSparrow GameSubType.Default []
  s

def setQueue (s : State) (i roomtype : Nat) (q : QueueObj) : State :=
  let obj := s.objs i
  { s with
    objs := Function.update s.objs i
      { obj with queues := Function.update obj.queues roomtype (some q) } }

/-- `ServerData.MatchQueue[queueKey] = nil`, of the object's own key. -/
def dropQueue (s : State) (i : Nat) : State :=
  { s with MatchQueue := Function.update s.MatchQueue (s.objs i).queueKey none }

/-- `none` where there is no queue of the level and the call raises. -/
def AddPlayer (s : State) (i roomtype : Nat) (player : Player) : Option State :=
  match (s.objs i).queues roomtype with
  | none => none
  | some q => some (s.setQueue i roomtype { q with queue := q.queue ++ [player] })

/-- The robots of a queue that is removed are no longer recorded and told to leave. -/
def exitRobots (s : State) (queue : List Player) : State :=
  let robots := queue.filter fun p => p.robot
  { s with
    MatchUserArr := fun id => if id ∈ robots.map (·.id) then none else s.MatchUserArr id
    sent := s.sent ++ robots.map fun p => .exitRobot p.addr }

/-- What a recorded function does. -/
def remove (s : State) (r : Remove) : State :=
  match (s.objs r.obj).queues r.roomtype with
  | none => s
  | some q =>
      if q.queue.any fun v => v.ref = r.player.ref then
        let removed := s.setQueue r.obj r.roomtype
          { q with queue := q.queue.eraseP fun v => v.ref = r.player.ref }
        if (s.objs r.obj).isRemoveMatchQueue then
          (removed.dropQueue r.obj).exitRobots q.queue
        else removed
      else s

/-- `none` where the call raises. -/
def StartMatch (s : State) (now gameType roomtype : Nat) (userData : UserData)
    (gameSubType : SubType) : State × Option Bool :=
  if conf.roomGroup gameType = none then (s, some false)
  else if (s.MatchUserArr userData.id).isSome then (s, some false)
  else
    let player : Player := { userData with ref := s.refs, startDt := some now }
    let s := { s with refs := s.refs + 1 }
    let (s, i) := s.GetMatchQueueObj conf gameType gameSubType userData.id
    match s.AddPlayer i roomtype player with
    | none => (s, none)
    | some s =>
        ({ s with
          MatchUserArr := Function.update s.MatchUserArr userData.id
            (some ⟨i, roomtype, player⟩) }, some true)

def MatchCancel (s : State) (id : Text) : State × Bool :=
  match s.MatchUserArr id with
  | none => (s, false)
  | some r =>
      let s := s.remove r
      ({ s with MatchUserArr := Function.update s.MatchUserArr id none }, true)

/-- `findVal(arr, nil)` finds nothing in any list, so the players are always replaced by
those of them that the configured ids name. -/
def sortPlayers (idArrSort : Option (List Text)) (players : List Player) : List Player :=
  match idArrSort with
  | none => players
  | some ids =>
      if ids.length = players.length then
        ids.filterMap fun id => players.find? fun p => p.id = id
      else players

def match_ok (s : State) (i : Nat) (players : List Player) (roomtype : Nat) : State :=
  let obj := s.objs i
  let players := sortPlayers obj.idArrSort players
  let matched := { s with
    MatchUserArr := fun id => if id ∈ players.map (·.id) then none else s.MatchUserArr id
    sent := s.sent ++ [.create_room ⟨obj.gameType, roomtype, obj.PlayerNum,
      players.map fun p => { p with startDt := none }⟩] }
  if obj.isRemoveMatchQueue then matched.dropQueue i else matched

/-- `match_ok` on so many groups in turn. -/
def matchGroups (i roomtype : Nat) : Nat → List Player → State → State
  | 0, _, s => s
  | n + 1, players, s =>
      matchGroups i roomtype n (players.drop (s.objs i).PlayerNum)
        (s.match_ok i (players.take (s.objs i).PlayerNum) roomtype)

/-- Whether the first player of a level has waited long enough. A queued player has a
`startDt`; without one the comparison would raise. -/
def waited (now : Nat) (sData : SData) (first : Player) : Bool :=
  match first.startDt with
  | none => false
  | some startDt => (sData.wait_time : Int) ≤ 1000 * ((now : Int) - startDt)

def gapped (now : Nat) (sData : SData) (q : QueueObj) : Bool :=
  (sData.gap_time : Int) ≤ 1000 * ((now : Int) - q.lastAddRobotDt)

def createRobot (s : State) (i now : Nat) (sData : SData) (q : QueueObj)
    (robotTagType : Option Nat) : State :=
  let obj := s.objs i
  let s := s.setQueue i sData.room_type { q with lastAddRobotDt := now }
  { s with
    sent := s.sent ++
      [.CreateRobot obj.gameType sData.room_type obj.gameSubTypeKey robotTagType] }

/-- One level of `TickDefault`. -/
def TickDefault (i now : Nat) (s : State) (sData : SData) : State :=
  let obj := s.objs i
  let roomtype := sData.room_type
  match obj.queues roomtype with
  | none => s
  | some q =>
      if obj.PlayerNum * 2 ≤ q.queue.length then
        let createRoomNum := q.queue.length / obj.PlayerNum
        let size := obj.PlayerNum * createRoomNum
        (s.setQueue i roomtype { q with queue := q.queue.drop size }).matchGroups i roomtype
          createRoomNum (conf.sort_by_gold (q.queue.take size))
      else
        match q.queue with
        | [] => s
        | first :: rest =>
            if waited now sData first then
              if obj.PlayerNum ≤ q.queue.length then
                (s.setQueue i roomtype { q with queue := q.queue.drop obj.PlayerNum }).match_ok i
                  (q.queue.take obj.PlayerNum) roomtype
              else if obj.isOpenRobot ∧ gapped now sData q then
                if first.is_anchor then
                  match rest with
                  | [] => s
                  | second :: rest =>
                      if second.is_anchor then s
                      else s.setQueue i roomtype { q with queue := second :: first :: rest }
                else s.createRobot i now sData q none
              else s
            else s

/-- One level of `TickRecycle`. -/
def TickRecycle (i now : Nat) (s : State) (sData : SData) : State :=
  let obj := s.objs i
  let roomtype := sData.room_type
  match obj.queues roomtype with
  | none => s
  | some q =>
      match q.queue with
      | [] => s
      | first :: _ =>
          if waited now sData first then
            if obj.PlayerNum ≤ q.queue.length then
              (s.setQueue i roomtype { q with queue := q.queue.drop obj.PlayerNum }).match_ok i
                (q.queue.take obj.PlayerNum) roomtype
            else if gapped now sData q then
              s.createRobot i now sData q (some (if obj.gameSubType = GameSubType.NewUser
                then RobotTagType.Pay else RobotTagType.Default))
            else s
          else s

def Tick (s : State) (i now : Nat) : State :=
  let obj := s.objs i
  if obj.gameSubType = GameSubType.Recycle ∨ obj.gameSubType = GameSubType.NewUser then
    (levels conf obj.gameType).foldl (TickRecycle i now) s
  else (levels conf obj.gameType).foldl (TickDefault conf i now) s

/-- `SetRoomMatchCfg` of the web service, where the configured cards pass its checks. -/
def SetRoomMatchCfg (s : State) (gameType : Nat) (arr : List Text) : State :=
  let idArr := arr.eraseDups
  if idArr.length = PlayerNumObj gameType ∧ arr.length = PlayerNumObj gameType then
    { s with
      RoomMatchCfg := fun id game =>
        if id ∈ idArr ∧ game = gameType then idArr else s.RoomMatchCfg id game }
  else s

end State

/-- What the service is asked to do, and the ticks of its loop, one queue object at a time. -/
inductive Event
  | startMatch (now gameType roomtype : Nat) (userData : UserData) (gameSubType : SubType)
  | matchCancel (id : Text)
  | tick (queueKey : Text) (now : Nat)
  | setRoomMatchCfg (gameType : Nat) (arr : List Text)

def step (s : State) : Event → Option State
  | .startMatch now gameType roomtype userData gameSubType =>
      some (s.StartMatch conf now gameType roomtype userData gameSubType).1
  | .matchCancel id => some (s.MatchCancel id).1
  | .tick queueKey now => (s.MatchQueue queueKey).map fun i => s.Tick conf i now
  | .setRoomMatchCfg gameType arr => some (s.SetRoomMatchCfg gameType arr)

end
end HuluLandlord.Match
