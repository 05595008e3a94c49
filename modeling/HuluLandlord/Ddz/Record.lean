import HuluLandlord.Ddz.Phase

/-!
Reading the record of a game. Statements about a game look at what has been
broadcast since the last deal; the messages the core leaves out are never among
what they count.
-/
namespace HuluLandlord.Ddz

def Message.isDeal : Message → Bool
  | .roomDealCard .. => true
  | _ => false

/-- The messages since the last deal, newest first. -/
def sinceDeal (sent : List Message) : List Message := sent.takeWhile fun m => !m.isDeal

@[simp] theorem sinceDeal_nil : sinceDeal [] = [] := rfl

theorem sinceDeal_cons {m : Message} (other : m.isDeal = false) (sent : List Message) :
    sinceDeal (m :: sent) = m :: sinceDeal sent := by
  simp [sinceDeal, other]

theorem sinceDeal_deal {m : Message} (deal : m.isDeal = true) (sent : List Message) :
    sinceDeal (m :: sent) = [] := by
  simp [sinceDeal, deal]

theorem isMove_of_isDeal {m : Message} (deal : m.isDeal = true) : m.isMove = true := by
  cases m with
  | roomDealCard p cards => rfl
  | _ => cases deal

/-- What is read off the record does not depend on the hidden messages. -/
theorem filterMap_sinceDeal_record {α : Type*} (read : Message → Option α)
    (hidden : ∀ m, m.isMove = false → read m = none) (sent : List Message) :
    (sinceDeal (sent.filter Message.isMove)).filterMap read =
      (sinceDeal sent).filterMap read := by
  induction sent with
  | nil => rfl
  | cons m sent ih =>
      cases deal : m.isDeal with
      | true =>
          rw [List.filter_cons_of_pos (isMove_of_isDeal deal), sinceDeal_deal deal,
            sinceDeal_deal deal]
      | false =>
          rw [sinceDeal_cons deal]
          cases move : m.isMove with
          | true =>
              rw [List.filter_cons_of_pos move, sinceDeal_cons deal, List.filterMap_cons,
                List.filterMap_cons, ih]
          | false =>
              rw [List.filter_cons_of_neg (by simp [move]), List.filterMap_cons_none (hidden m move),
                ih]

theorem filterMap_record {α : Type*} (read : Message → Option α)
    (hidden : ∀ m, m.isMove = false → read m = none) (sent : List Message) :
    (sent.filter Message.isMove).filterMap read = sent.filterMap read := by
  rw [List.filterMap_filter]
  refine List.filterMap_congr fun m _ => ?_
  cases move : m.isMove with
  | true => rfl
  | false => exact (hidden m move).symm

theorem countP_record (counted : Message → Bool)
    (hidden : ∀ m, m.isMove = false → counted m = false) (sent : List Message) :
    (sent.filter Message.isMove).countP counted = sent.countP counted := by
  rw [List.countP_filter]
  refine List.countP_congr fun m _ => ?_
  cases move : m.isMove with
  | true => simp
  | false => simp [hidden m move]

/-- What only a deal and the record's messages change. -/
def Room.table (c : Room) : List Message × Nat × List Card :=
  (c.sent, c.dealCardCount, c.bottomCards)

/-- Between two rooms nothing was dealt, and what was broadcast is of one kind. -/
structure Room.Adds (kind : Message → Prop) (c c' : Room) : Prop where
  sent : ∃ new, c'.sent = new ++ c.sent ∧ ∀ m ∈ new, kind m
  dealCardCount : c'.dealCardCount = c.dealCardCount
  bottomCards : c'.bottomCards = c.bottomCards

section Adds
variable {kind : Message → Prop} {a c c' : Room} {p : Seat}

theorem Room.Adds.same (same : c'.table = c.table) : c.Adds kind c' :=
  ⟨⟨[], congrArg Prod.fst same, fun _ mem => absurd mem List.not_mem_nil⟩,
    congrArg (fun t => t.2.1) same, congrArg (fun t => t.2.2) same⟩

theorem Room.Adds.send {m : Message} (is : kind m) (adds : a.Adds kind c) :
    a.Adds kind (c.send m) := by
  obtain ⟨⟨new, sent, all⟩, count, bottom⟩ := adds
  refine ⟨⟨m :: new, congrArg (m :: ·) sent, ?_⟩, count, bottom⟩
  intro n mem
  obtain rfl | mem := List.mem_cons.mp mem
  · exact is
  · exact all n mem

theorem Room.Adds.to (adds : a.Adds kind c) (same : c'.table = c.table) : a.Adds kind c' := by
  obtain ⟨⟨new, sent, all⟩, count, bottom⟩ := adds
  exact ⟨⟨new, (congrArg Prod.fst same).trans sent, all⟩,
    (congrArg (fun t => t.2.1) same).trans count, (congrArg (fun t => t.2.2) same).trans bottom⟩

theorem Room.Adds.start (adds : c.Adds kind c') (same : c.table = a.table) : a.Adds kind c' := by
  obtain ⟨⟨new, sent, all⟩, count, bottom⟩ := adds
  exact ⟨⟨new, sent.trans (congrArg (fun t => new ++ t.1) same), all⟩,
    count.trans (congrArg (fun t => t.2.1) same), bottom.trans (congrArg (fun t => t.2.2) same)⟩

theorem Room.Adds.mono {kind' : Message → Prop} (weaker : ∀ m, kind m → kind' m)
    (adds : c.Adds kind c') : c.Adds kind' c' := by
  obtain ⟨new, sent, all⟩ := adds.sent
  exact ⟨⟨new, sent, fun m mem => weaker m (all m mem)⟩, adds.dealCardCount, adds.bottomCards⟩

theorem Room.Adds.refl : c.Adds kind c := .same rfl

theorem Room.Adds.multiple {key : MultipleKey} {val : Nat}
    (is : ∀ k v f, kind (.roomSyncMultiple k v p f)) (adds : a.Adds kind c) :
    a.Adds kind (c.addMultiple key val p) :=
  Room.Adds.send (c := { c with multiple := Room.multiplied c.multiple key val }) (is _ _ _)
    (adds.to rfl)

theorem Room.Adds.announce {key : Option MultipleKey} {val : Nat}
    (is : ∀ k v f, kind (.roomSyncMultiple k v p f)) (adds : a.Adds kind c) :
    a.Adds kind (c.announce key val p) := by
  cases key with
  | none => exact adds
  | some key => exact adds.multiple is

theorem Room.Adds.promptAll {state : PlayerState} {time : Int}
    (is : ∀ q s, kind (.roomPleasePlayerAction q state time s)) (adds : a.Adds kind c) :
    a.Adds kind (c.promptAll state time) :=
  ((((adds.send (is 0 _)).to rfl).send (is 1 _)).to rfl |>.send (is 2 _)).to rfl

/-- A reading that sees nothing in the new messages is as it was. -/
theorem filterMap_sinceDeal_adds {α : Type*} {read : Message → Option α}
    (blind : ∀ m, kind m → read m = none ∧ m.isDeal = false) (adds : c.Adds kind c') :
    (sinceDeal c'.sent).filterMap read = (sinceDeal c.sent).filterMap read := by
  obtain ⟨new, sent, all⟩ := adds.sent
  rw [sent]
  clear sent
  induction new with
  | nil => rfl
  | cons m new ih =>
      obtain ⟨unread, other⟩ := blind m (all m List.mem_cons_self)
      rw [List.cons_append, sinceDeal_cons other, List.filterMap_cons_none unread]
      exact ih fun n mem => all n (List.mem_cons_of_mem m mem)

theorem filterMap_adds {α : Type*} {read : Message → Option α}
    (blind : ∀ m, kind m → read m = none) (adds : c.Adds kind c') :
    c'.sent.filterMap read = c.sent.filterMap read := by
  obtain ⟨new, sent, all⟩ := adds.sent
  have unread : new.filterMap read = [] :=
    List.filterMap_eq_nil_iff.mpr fun m mem => blind m (all m mem)
  rw [sent, List.filterMap_append, unread, List.nil_append]

theorem countP_adds {counted : Message → Bool} (blind : ∀ m, kind m → counted m = false)
    (adds : c.Adds kind c') : c'.sent.countP counted = c.sent.countP counted := by
  obtain ⟨new, sent, all⟩ := adds.sent
  have none' : new.countP counted = 0 :=
    List.countP_eq_zero.mpr fun m mem => by simp [blind m (all m mem)]
  rw [sent, List.countP_append, none', Nat.zero_add]

end Adds

/-- The actions of the bidding. -/
def isBidAction : PlayerAction → Bool
  | .callLandlord | .notCall | .robLandlord | .notRob => true
  | _ => false

/-- Messages that say nothing about the deal, the bidding or who is landlord. -/
def Message.isPlain : Message → Prop
  | .roomDealCard .. | .roomSyncPlayerSkill .. | .roomLandlordSet .. => False
  | .roomPleasePlayerAction _ state _ _ => state ≠ .callLandlord ∧ state ≠ .robLandlord
  | .roomSyncPlayerAction _ type _ => isBidAction type = false
  | _ => True

/-- A move of the playing phase as it is broadcast: cards, or `none` for a pass. -/
def Message.move : Message → Option (Seat × Option PlayCardObj)
  | .roomSyncPlayerAction p .playCard (some play) => some (p, some play)
  | .roomSyncPlayerAction p .pass _ => some (p, none)
  | _ => none

def movesIn (messages : List Message) : List (Seat × Option PlayCardObj) :=
  messages.filterMap Message.move

/-- The winner a settlement names. -/
def Message.winner : Message → Option Seat
  | .roomGameOver w _ => some w
  | _ => none

def winnersIn (messages : List Message) : List Seat := messages.filterMap Message.winner

/-- Plain messages that are neither moves nor the end. -/
def Message.isStill (m : Message) : Prop := m.isPlain ∧ m.move = none ∧ m.winner = none

section Late
variable {conf : Conf} {e : Event} {d : Draws} {c c' : Room} {ph ph' : Phase} {p l : Seat}

theorem isStill_multiple (k : MultipleKey) (v : Nat) (p : Seat) (f : Seat → Nat) :
    (Message.roomSyncMultiple k v p f).isStill := ⟨trivial, rfl, rfl⟩

theorem isStill_prompt {state : PlayerState}
    (late : state = .doubleing ∨ state = .doubleMax ∨ state = .playing) (p : Seat) (time : Int)
    (s : PlayCardState) : (Message.roomPleasePlayerAction p state time s).isStill := by
  obtain rfl | rfl | rfl := late
  · exact ⟨⟨by decide, by decide⟩, rfl, rfl⟩
  · exact ⟨⟨by decide, by decide⟩, rfl, rfl⟩
  · exact ⟨⟨by decide, by decide⟩, rfl, rfl⟩

theorem adds_coreAnswer {type : PlayerAction} {key : Option MultipleKey} {val : Nat}
    (still : (Message.roomSyncPlayerAction p type none).isStill)
    (late : c.state = .doubleing ∨ c.state = .doubleMax) :
    c.Adds Message.isStill (c.coreAnswer conf p type key val d) := by
  have announced : c.Adds Message.isStill
      ((c.send (.roomSyncPlayerAction p type none)).announce key val p) :=
    ((Room.Adds.same rfl).send still).announce fun k v f => isStill_multiple k v p f
  have state := congrArg Control.state
    (control_announce (c := c.send (.roomSyncPlayerAction p type none)) (p := p) key val)
  simp only [Room.coreAnswer]
  generalize (c.send (.roomSyncPlayerAction p type none)).announce key val p = m
    at announced state ⊢
  cases late with
  | inl doubleing =>
      rw [coreActionEnd_doubleing conf d type (state.trans doubleing)]
      split <;> exact announced.to rfl
  | inr doubleMax =>
      rw [coreActionEnd_doubleMax conf d type (state.trans doubleMax)]
      split <;> exact announced.to rfl

theorem table_playing {type : PlayerAction} (state : c.state = .playing) :
    (c.coreActionEnd conf p type d).table = c.table := by
  rw [coreActionEnd_playing conf d type state]
  split <;> rfl

theorem adds_bombMultiple {play : PlayCardObj} {a m : Room} {kind : Message → Prop}
    (is : ∀ k v f, kind (.roomSyncMultiple k v p f))
    (found : c.bombMultiple conf p play = .ok m) (adds : a.Adds kind c) : a.Adds kind m := by
  simp only [Room.bombMultiple] at found
  split at found
  · split at found
    · rw [← Except.ok.inj found]
      exact adds.multiple is
    · cases found
  · rw [← Except.ok.inj found]
    exact adds

theorem adds_recorded {play : PlayCardObj} {kind : Message → Prop}
    (is : kind (.roomSyncPlayerAction p .playCard (some play))) :
    c.Adds kind (c.recorded p play) := by
  have sent : c.Adds kind ((c.played p (some play)).send
    (.roomSyncPlayerAction p .playCard (some play))) := Room.Adds.send is (.same rfl)
  exact sent.to rfl

theorem adds_pass {kind : Message → Prop} (is : kind (.roomSyncPlayerAction p .pass none))
    (state : c.state = .playing) : c.Adds kind (c.corePlay conf p none d) := by
  have sent : c.Adds kind ((c.played p none).send (.roomSyncPlayerAction p .pass none)) :=
    Room.Adds.send is (.same rfl)
  exact sent.to (table_playing (c := (c.played p none).send
    (.roomSyncPlayerAction p .pass none)) state)

theorem adds_actionEnded {kind : Message → Prop} (is : ∀ k v f, kind (.roomSyncMultiple k v p f))
    (finished : ∀ datas, kind (.roomGameOver p datas)) : c.Adds kind (c.actionEnded conf p) := by
  simp only [Room.actionEnded]
  split
  · split
    · exact (Room.Adds.refl.multiple is).send (finished _)
    · exact Room.Adds.refl.send (finished _)
  · split
    · exact .same rfl
    · split
      · exact (Room.Adds.refl.multiple is).send (finished _)
      · exact Room.Adds.refl.send (finished _)

theorem doubleInfo_still {t : Option PlayerAction} {type : PlayerAction} {multiple : Nat}
    {key : Option MultipleKey} (info : Room.doubleInfo conf t = some (type, multiple, key)) :
    (Message.roomSyncPlayerAction p type none).isStill := by
  simp only [Room.doubleInfo] at info
  split at info
  all_goals simp only [Option.some.injEq, Prod.mk.injEq, reduceCtorEq] at info
  all_goals rw [← info.1]
  all_goals exact ⟨rfl, rfl, rfl⟩

theorem doubleMaxInfo_still {t : Option PlayerAction} {type : PlayerAction} {multiple : Nat}
    {key : Option MultipleKey} (info : Room.doubleMaxInfo conf t = some (type, multiple, key)) :
    (Message.roomSyncPlayerAction p type none).isStill := by
  simp only [Room.doubleMaxInfo] at info
  split at info
  all_goals simp only [Option.some.injEq, Prod.mk.injEq, reduceCtorEq] at info
  all_goals rw [← info.1]
  all_goals exact ⟨rfl, rfl, rfl⟩

/-- Between the announcement of the landlord and the moves, and after each move, nothing
about the bidding and no move is broadcast. -/
theorem adds_still (phase : c.control = ph.control) (set : ph.control.landlordPlayer = some l)
    (announced : ∀ rob l, ph ≠ .landlordDelay rob l) (noMove : ∀ l p, ph ≠ .playing l p)
    (noEnd : ∀ l w, ph = .out l w → ph' = .out l w) (trans : Trans conf e d c ph ph' c') :
    c.Adds Message.isStill c' := by
  have state : c.state = ph.control.state := congrArg Control.state phase
  cases trans with
  | gold ph p num => exact .same rfl
  | showCard ph p early => exact Room.Adds.refl.multiple fun k v f => isStill_multiple k v p f
  | first => cases set
  | bid rob yes p => cases set
  | force rob q p buff cfg skill => cases set
  | delayed rob l => exact absurd rfl (announced rob l)
  | set rob l =>
      exact (Room.Adds.refl.promptAll fun q s => isStill_prompt (.inl rfl) q _ s).start rfl
  | double l p answered t type multiple key open' info =>
      exact Room.Adds.start (c := c.modify p _)
        (adds_coreAnswer (doubleInfo_still info) (.inl state)) rfl
  | doubled l =>
      exact (Room.Adds.refl.promptAll fun q s => isStill_prompt (.inr (.inl rfl)) q _ s).start rfl
  | doubleMax l p answered t type multiple key open' info =>
      exact Room.Adds.start (c := c.modify p _)
        (adds_coreAnswer (doubleMaxInfo_still info) (.inr state)) rfl
  | doubledMax l =>
      exact ((Room.Adds.same rfl).send (m := .roomPleasePlayerAction _ .playing _ _)
        (isStill_prompt (.inr (.inr rfl)) _ _ _)).to rfl
  | pass l p plays cards => exact absurd rfl (noMove l p)
  | passOut l p plays cards => exact absurd rfl (noMove l p)
  | play l p play m plays mirror bomb => exact absurd rfl (noMove l p)
  | mirrorRaised l p play plays mirror => exact absurd rfl (noMove l p)
  | bombRaised l p play message plays mirror bomb => exact absurd rfl (noMove l p)
  | turn l p cards => exact .same (table_playing (c := { c with holding := none }) state)
  | out l p cards => exact .same (table_playing (c := { c with holding := none }) state)
  | next l last found =>
      rw [coreResume_next conf d found]
      exact ((Room.Adds.same rfl).send (m := .roomPleasePlayerAction _ .playing _ _)
        (isStill_prompt (.inr (.inr rfl)) _ _ _)).to rfl
  | lost l found =>
      rw [coreResume_lost conf d found]
      exact .same rfl
  | ended l w => cases noEnd l w rfl

theorem adds_over {w : Seat} : c.Adds Message.isPlain (c.coreFire conf (.ended w) d) := by
  refine Room.Adds.start (c := Room.enter { c with waits := c.waits.erase (.ended w) } .ended
    (some w)) ?_ rfl
  exact adds_actionEnded (fun _ _ _ => trivial) fun _ => trivial

/-- Moves are plain. -/
theorem adds_move (phase : c.control = (Phase.playing l p).control)
    (trans : Trans conf e d c (.playing l p) ph' c') : c.Adds Message.isPlain c' := by
  have state : c.state = .playing := congrArg Control.state phase
  cases trans with
  | gold ph q num => exact .same rfl
  | showCard ph q early => exact Room.Adds.refl.multiple fun _ _ _ => trivial
  | pass l p plays cards => exact adds_pass (show isBidAction .pass = false from rfl) state
  | passOut l p plays cards => exact adds_pass (show isBidAction .pass = false from rfl) state
  | play l p play m plays mirror bomb =>
      have added : c.Adds Message.isPlain m := adds_bombMultiple (fun _ _ _ => trivial) bomb
        (adds_recorded (show isBidAction .playCard = false from rfl))
      exact added.to rfl
  | mirrorRaised l p play plays mirror => exact .same rfl
  | bombRaised l p play message plays mirror bomb =>
      exact adds_recorded (show isBidAction .playCard = false from rfl)

/-- After the landlord is announced, nothing more about the bidding is broadcast. -/
theorem adds_late (phase : c.control = ph.control) (set : ph.control.landlordPlayer = some l)
    (announced : ∀ rob l, ph ≠ .landlordDelay rob l) (trans : Trans conf e d c ph ph' c') :
    c.Adds Message.isPlain c' := by
  by_cases moving : ∃ l p, ph = .playing l p
  · obtain ⟨l, p, rfl⟩ := moving
    exact adds_move phase trans
  · by_cases finishing : ∃ l w, ph = .out l w ∧ ph' ≠ .out l w
    · obtain ⟨l, w, rfl, moved⟩ := finishing
      cases trans with
      | gold ph p num => exact absurd rfl moved
      | showCard ph p early => exact absurd rfl moved
      | ended l w => exact adds_over
    · exact (adds_still phase set announced (fun l p here => moving ⟨l, p, here⟩)
        (fun l w here => not_not.mp fun moved => finishing ⟨l, w, here, moved⟩) trans).mono
        fun _ still => still.1

end Late

end HuluLandlord.Ddz
